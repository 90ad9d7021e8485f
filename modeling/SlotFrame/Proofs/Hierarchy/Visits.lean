import SlotFrame.Proofs.Hierarchy.WaysBack

/-! # Visits by recursion

The search for a way back as a recursion: a visit puts a name on the path, visits what stands above
it as far as that is not done, and then is done with the name. The names that are done are known,
all that stands above them is among them, and none leads back to itself; a name is added only after
all that stands above it, so none of the names on the path is among them. The names on the path are
a way upwards from the start, so a name that is met on it again is where a way leads back. Each step
puts another known name on the path, so a limit above their number is never exhausted.

Main definitions: `visit`, `visited?`, `Grounded`, `Explains`, `Settles`.

Main statements: `grounds_of_visit` (what is done leads nowhere back) and `settles_visit` (a visit
ends, and fails only where nothing can be told or a way leads back). -/

namespace SlotFrame

variable {kind : ElementKind} {above : Above}

/-- Visits a name below a path; answers the names from which no way leads back. -/
def visit (kind : ElementKind) (above : Above) :
    Nat → List String → List String → String → Bounded (List String)
  | 0, _, _, _ => Bounded.exhausted
  | limit + 1, path, done, n => do
    let names ← Bounded.lift (above n)
    let path := path ++ [n]
    let done ← names.foldlM (fun done p =>
      if p ∈ path then Bounded.lift (.error (.cyclic kind (path.dropWhile (· ≠ p) ++ [p])))
      else if p ∈ done then return done
      else visit kind above limit path done p) done
    return n :: done

/-- Whether a visit of a name finds no way back. -/
def visited? (limit : Nat) (kind : ElementKind) (above : Above) (start : String) : Bounded Unit := do
  let _ ← visit kind above limit [] [] start

/-! ### Visits one by one -/

/-- Visits names below a path one after the other. -/
def visitAll (kind : ElementKind) (above : Above) (limit : Nat) (path done names : List String) :
    Bounded (List String) :=
  names.foldlM (fun done p =>
    if p ∈ path then Bounded.lift (.error (.cyclic kind (path.dropWhile (· ≠ p) ++ [p])))
    else if p ∈ done then return done
    else visit kind above limit path done p) done

theorem visit_succ (limit : Nat) (path done : List String) (n : String) :
    visit kind above (limit + 1) path done n = Bounded.lift (above n) >>= fun names =>
      visitAll kind above limit (path ++ [n]) done names >>= fun done => pure (n :: done) := rfl

theorem run_visit_succ (limit : Nat) (path done : List String) (n : String) :
    (visit kind above (limit + 1) path done n).run = match above n with
      | .ok names => match (visitAll kind above limit (path ++ [n]) done names).run with
        | some (.ok done) => some (.ok (n :: done))
        | some (.error f) => some (.error f)
        | none => none
      | .error f => some (.error f) := by
  rw [visit_succ, Bounded.run_lift_bind]
  cases above n with
  | error f => rfl
  | ok names =>
    dsimp only
    rw [Bounded.run_bind]
    cases (visitAll kind above limit (path ++ [n]) done names).run with
    | none => rfl
    | some r => cases r <;> rfl

theorem run_visitAll_cons (limit : Nat) (path done names : List String) (p : String) :
    (visitAll kind above limit path done (p :: names)).run =
      if p ∈ path then some (.error (.cyclic kind (path.dropWhile (· ≠ p) ++ [p])))
      else if p ∈ done then (visitAll kind above limit path done names).run
      else match (visit kind above limit path done p).run with
        | some (.ok done) => (visitAll kind above limit path done names).run
        | some (.error f) => some (.error f)
        | none => none := by
  unfold visitAll
  rw [List.foldlM_cons]
  by_cases hpath : p ∈ path
  · rw [if_pos hpath, if_pos hpath, Bounded.run_lift_bind]
  · rw [if_neg hpath, if_neg hpath]
    by_cases hdone : p ∈ done
    · rw [if_pos hdone, if_pos hdone, pure_bind]
    · rw [if_neg hdone, if_neg hdone, Bounded.run_bind]
      cases (visit kind above limit path done p).run with
      | none => rfl
      | some r => cases r <;> rfl

/-! ### What a search establishes -/

/-- Known names above which there are only such names, none of them leading back to itself. -/
structure Grounded (above : Above) (done : List String) : Prop where
  known : ∀ n ∈ done, ∃ names, above n = .ok names
  closed : ∀ n ∈ done, ∀ p, above.Parent n p → p ∈ done
  noReturn : ∀ n ∈ done, ¬ above.Ascends n n

namespace Grounded

theorem nil (above : Above) : Grounded above [] where
  known n hn := by cases hn
  closed n hn := by cases hn
  noReturn n hn := by cases hn

variable {done : List String} (h : Grounded above done)

include h

theorem mem_of_reaches {n p : String} (hn : n ∈ done) (hp : above.Reaches n p) : p ∈ done :=
  hp.mem_of_closed (fun x q hx hq => h.closed x hx q hq) hn

/-- A name may join once all that stands above it is there. -/
theorem cons {n : String} {names : List String} (hn : above n = .ok names) (hnew : n ∉ done)
    (hnames : ∀ p ∈ names, p ∈ done) : Grounded above (n :: done) where
  known x hx := by
    rcases List.mem_cons.1 hx with rfl | hx
    · exact ⟨names, hn⟩
    · exact h.known x hx
  closed x hx p hp := by
    rcases List.mem_cons.1 hx with rfl | hx
    · exact List.mem_cons_of_mem _ (hnames p (hp.mem hn))
    · exact List.mem_cons_of_mem _ (h.closed x hx p hp)
  noReturn x hx hback := by
    rcases List.mem_cons.1 hx with rfl | hx
    · obtain ⟨p, hp, hback⟩ := Relation.TransGen.head'_iff.1 hback
      exact hnew (h.mem_of_reaches (hnames p (Above.Parent.mem hp hn)) hback)
    · exact h.noReturn x hx hback

end Grounded

/-- A search that ends well has grounded what it was asked about, and nothing that is on its
path. -/
structure Grounds (above : Above) (path done : List String) (asked : String → Prop)
    (done' : List String) : Prop where
  grounded : Grounded above done'
  kept : ∀ n ∈ done, n ∈ done'
  asked : ∀ n, asked n → n ∈ done'
  offPath : ∀ n ∈ path, n ∉ done'

theorem grounds_of_visitAll {limit : Nat} {path : List String}
    (hvisit : ∀ {done done' : List String} {p : String},
      (visit kind above limit path done p).run = some (.ok done') → Grounded above done →
      (∀ n ∈ path, n ∉ done) → p ∉ path → p ∉ done → Grounds above path done (· = p) done')
    {done done' names : List String}
    (h : (visitAll kind above limit path done names).run = some (.ok done'))
    (hg : Grounded above done) (hoff : ∀ n ∈ path, n ∉ done) :
    Grounds above path done (· ∈ names) done' := by
  induction names generalizing done with
  | nil =>
    cases h
    exact ⟨hg, fun _ hn => hn, fun _ hn => absurd hn List.not_mem_nil, hoff⟩
  | cons p names ih =>
    rw [run_visitAll_cons] at h
    by_cases hpath : p ∈ path
    · rw [if_pos hpath] at h
      cases h
    rw [if_neg hpath] at h
    by_cases hdone : p ∈ done
    · rw [if_pos hdone] at h
      have hrest := ih h hg hoff
      refine ⟨hrest.grounded, hrest.kept, ?_, hrest.offPath⟩
      intro n hn
      rcases List.mem_cons.1 hn with rfl | hn
      · exact hrest.kept n hdone
      · exact hrest.asked n hn
    · rw [if_neg hdone] at h
      cases hv : (visit kind above limit path done p).run with
      | none =>
        rw [hv] at h
        cases h
      | some r =>
        rw [hv] at h
        cases r with
        | error f => cases h
        | ok done₁ =>
          have hfirst := hvisit hv hg hoff hpath hdone
          have hrest := ih h hfirst.grounded hfirst.offPath
          refine ⟨hrest.grounded, fun n hn => hrest.kept n (hfirst.kept n hn), ?_, hrest.offPath⟩
          intro n hn
          rcases List.mem_cons.1 hn with rfl | hn
          · exact hrest.kept n (hfirst.asked n rfl)
          · exact hrest.asked n hn

/-- By induction on the limit: what stands above a name is grounded before the name is. -/
theorem grounds_of_visit {limit : Nat} {path done done' : List String} {n : String}
    (h : (visit kind above limit path done n).run = some (.ok done')) (hg : Grounded above done)
    (hoff : ∀ x ∈ path, x ∉ done) (hpath : n ∉ path) (hdone : n ∉ done) :
    Grounds above path done (· = n) done' := by
  induction limit generalizing path done done' n with
  | zero => cases h
  | succ limit ih =>
    rw [run_visit_succ] at h
    cases hn : above n with
    | error f =>
      rw [hn] at h
      cases h
    | ok names =>
      rw [hn] at h
      dsimp only at h
      have hoff' : ∀ x ∈ path ++ [n], x ∉ done := by
        intro x hx
        rcases List.mem_append.1 hx with hx | hx
        · exact hoff x hx
        · rw [List.mem_singleton.1 hx]
          exact hdone
      cases hall : (visitAll kind above limit (path ++ [n]) done names).run with
      | none =>
        rw [hall] at h
        cases h
      | some r =>
        rw [hall] at h
        cases r with
        | error f => cases h
        | ok done₁ =>
          cases h
          have hnames := grounds_of_visitAll ih hall hg hoff'
          have hnew : n ∉ done₁ := hnames.offPath n (by simp)
          refine ⟨hnames.grounded.cons hn hnew hnames.asked, ?_, ?_, ?_⟩
          · intro x hx
            exact List.mem_cons_of_mem _ (hnames.kept x hx)
          · rintro x rfl
            exact List.mem_cons_self
          · intro x hx hmem
            rcases List.mem_cons.1 hmem with rfl | hmem
            · exact hpath hx
            · exact hnames.offPath x (List.mem_append_left _ hx) hmem

/-! ### When a search ends, and with what -/

/-- Why a search from a name fails: nothing can be told about a name that it reaches, or a way leads
back to one. -/
def Explains (kind : ElementKind) (above : Above) (start : String) (f : Fault) : Prop :=
  (∃ n, above.Reaches start n ∧ above n = .error f) ∨
    ∃ path, f = .cyclic kind path ∧ above.WayBack start path

/-- A search that comes to an end, and fails only for a reason. -/
def Settles {α : Type} (kind : ElementKind) (above : Above) (start : String)
    (search : Bounded α) : Prop :=
  ∃ r, search.run = some r ∧ ∀ f, r = .error f → Explains kind above start f

section settling

variable {limit : Nat} {start : String}

theorem settles_visitAll {path names : List String}
    (hback : ∀ p ∈ names, p ∈ path → above.WayBack start (path.dropWhile (· ≠ p) ++ [p]))
    (hvisit : ∀ p ∈ names, p ∉ path → ∀ done,
      Settles kind above start (visit kind above limit path done p)) (done : List String) :
    Settles kind above start (visitAll kind above limit path done names) := by
  induction names generalizing done with
  | nil => exact ⟨.ok done, rfl, fun _ hf => nomatch hf⟩
  | cons p names ih =>
    have hrest := ih (fun q hq => hback q (List.mem_cons_of_mem _ hq))
      fun q hq => hvisit q (List.mem_cons_of_mem _ hq)
    unfold Settles
    rw [run_visitAll_cons]
    by_cases hpath : p ∈ path
    · rw [if_pos hpath]
      refine ⟨_, rfl, fun f hf => .inr ?_⟩
      cases hf
      exact ⟨_, rfl, hback p List.mem_cons_self hpath⟩
    rw [if_neg hpath]
    by_cases hdone : p ∈ done
    · rw [if_pos hdone]
      exact hrest done
    rw [if_neg hdone]
    obtain ⟨r, hr, hfault⟩ := hvisit p List.mem_cons_self hpath done
    rw [hr]
    cases r with
    | error f => exact ⟨.error f, rfl, hfault⟩
    | ok done₁ => exact hrest done₁

/-- The names on the path are reached and known, so it ends before the limit is reached. -/
theorem settles_visit {known path : List String} {n : String}
    (hknown : ∀ x ps, above.Reaches start x → above x = .ok ps → x ∈ known)
    (hclimb : above.Climb start (path ++ [n]))
    (hlimit : (known.filter (· ∉ path)).length < limit) (done : List String) :
    Settles kind above start (visit kind above limit path done n) := by
  induction limit generalizing path n done with
  | zero => omega
  | succ limit ih =>
    have hlast : n ∈ path ++ [n] := List.mem_append_right path (List.mem_singleton_self n)
    have hreach := hclimb.reached n hlast
    unfold Settles
    rw [run_visit_succ]
    cases hn : above n with
    | error f =>
      refine ⟨.error f, rfl, fun f' hf => .inl ?_⟩
      cases hf
      exact ⟨n, hreach, hn⟩
    | ok names =>
      have hpath : n ∉ path := fun hmem =>
        List.disjoint_of_nodup_append hclimb.once hmem (List.mem_singleton_self n)
      have hless := unseen_lt (hknown n names hreach hn) hpath hlast
        fun x hx => List.mem_append_left [n] hx
      have hstep : ∀ p ∈ names, above.Parent n p := fun p hp => ⟨names, hn, hp⟩
      have hvisit : ∀ p ∈ names, p ∉ path ++ [n] → ∀ done,
          Settles kind above start (visit kind above limit (path ++ [n]) done p) :=
        fun p hp hnew done => ih (hclimb.snoc (hstep p hp) hnew) (by omega) done
      obtain ⟨r, hr, hfault⟩ :=
        settles_visitAll (fun p hp => hclimb.wayBack (hstep p hp)) hvisit done
      dsimp only
      rw [hr]
      cases r with
      | error f => exact ⟨.error f, rfl, hfault⟩
      | ok done₁ => exact ⟨_, rfl, fun _ hf => nomatch hf⟩

/-- A reason to fail is a name about which nothing can be told or that leads back to itself. -/
theorem Explains.not_forall {f : Fault} (h : Explains kind above start f) :
    ¬ ∀ n, above.Reaches start n → (∃ names, above n = .ok names) ∧ ¬ above.Ascends n n := by
  intro hall
  rcases h with ⟨n, hreach, hf⟩ | ⟨path, -, hback⟩
  · obtain ⟨names, hn⟩ := (hall n hreach).1
    rw [hn] at hf
    cases hf
  · obtain ⟨n, hreach, hn⟩ := hback.exists_ascends
    exact (hall n hreach).2 hn

/-- A search by recursion comes to an end within a limit above the number of names that it may reach
and that are known. -/
theorem settles_visited? {known : List String}
    (hknown : ∀ x ps, above.Reaches start x → above x = .ok ps → x ∈ known)
    (hlimit : known.length < limit) :
    Settles kind above start (visited? limit kind above start) := by
  have hlimit' : (known.filter (· ∉ ([] : List String))).length < limit := by
    simpa using hlimit
  have hvisit : Settles kind above start (visit kind above limit [] [] start) :=
    settles_visit hknown (above.climb_single start) hlimit' []
  obtain ⟨r, hr, hfault⟩ := hvisit
  unfold Settles visited?
  rw [Bounded.run_bind, hr]
  cases r with
  | error f =>
    refine ⟨.error f, rfl, fun f' hf => ?_⟩
    cases hf
    exact hfault f rfl
  | ok done => exact ⟨.ok (), rfl, fun _ hf => nomatch hf⟩

/-- A search by recursion that ends well has grounded its start. -/
theorem grounded_of_visited? (h : (visited? limit kind above start).run = some (.ok ())) :
    ∃ done, Grounded above done ∧ start ∈ done := by
  unfold visited? at h
  rw [Bounded.run_bind] at h
  cases hv : (visit kind above limit [] [] start).run with
  | none =>
    rw [hv] at h
    cases h
  | some r =>
    rw [hv] at h
    cases r with
    | error f => cases h
    | ok done =>
      have hg := grounds_of_visit hv (.nil above) (fun _ _ => List.not_mem_nil)
        List.not_mem_nil List.not_mem_nil
      exact ⟨done, hg.grounded, hg.asked start rfl⟩

/-- What a grounded name reaches is known and does not lead back to itself. -/
theorem Grounded.of_reaches {done : List String} {n : String} (h : Grounded above done)
    (hstart : start ∈ done) (hn : above.Reaches start n) :
    (∃ names, above n = .ok names) ∧ ¬ above.Ascends n n :=
  ⟨h.known n (h.mem_of_reaches hstart hn), h.noReturn n (h.mem_of_reaches hstart hn)⟩

end settling

end SlotFrame
