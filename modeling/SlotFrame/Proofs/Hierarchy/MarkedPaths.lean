import SlotFrame.Proofs.Hierarchy.Visits

/-! # Marks and the path

The loop that searches for a way back keeps two things: a mark for every name that it has come to,
and a stack of the names on the path, each with those above it that are still to be looked at. They
stay in step: the names that are marked as being on the path lie on the stack, each once, and all
other marked names are done. So what lies on top of the stack is looked at as the recursion does it
that visits the names above a name, with the outcome of the loop if that fails; else the loop goes
on with the rest of the stack where the recursion has come to.

Main definitions: `PathSearch.InStep`, `PathSearch.Awaits`.

Main statements: `PathSearch.InStep.enter` and `PathSearch.InStep.leave` (marks and stack stay in
step), `visitAll_of_goOn` (the top of the stack is visited first), `run_visited?` (the loop comes to
what the recursion comes to) and `exists_acyclicFrom` (the loop comes to an end). -/

namespace SlotFrame

variable {kind : ElementKind} {above : Above}

namespace PathSearch

variable {marks : Table Mark} {stack : List (String × List String)} {s : PathSearch}
  {n p : String} {names path done : List String} {expand : PathSearch → String → Bounded Unit}

/-! ### Steps of the loop -/

theorem path_cons (marks : Table Mark) (n : String) (names : List String)
    (stack : List (String × List String)) :
    PathSearch.path ⟨marks, (n, names) :: stack⟩ = PathSearch.path ⟨marks, stack⟩ ++ [n] := by
  unfold PathSearch.path
  rw [List.map_cons, List.reverse_cons]

theorem wayBack_eq (hpath : s.path = path) (hp : p ∈ path) :
    s.wayBack p = path.dropWhile (· ≠ p) ++ [p] := by
  have hfound : path.findIdx? (· = p) = some (path.findIdx (· = p)) :=
    List.findIdx?_eq_some_of_exists ⟨p, hp, by simp⟩
  unfold wayBack
  rw [hpath, hfound, List.dropWhile_eq_drop_findIdx_not]
  simp

theorem goOn_empty (marks : Table Mark) (expand : PathSearch → String → Bounded Unit) :
    goOn ⟨marks, []⟩ kind expand = pure () := rfl

theorem goOn_leave (marks : Table Mark) (n : String) (stack : List (String × List String))
    (expand : PathSearch → String → Bounded Unit) :
    goOn ⟨marks, (n, []) :: stack⟩ kind expand = goOn ⟨marks.insert n .done, stack⟩ kind expand :=
  rfl

theorem goOn_done (h : marks.get? p = some .done) :
    goOn ⟨marks, (n, p :: names) :: stack⟩ kind expand =
      goOn ⟨marks, (n, names) :: stack⟩ kind expand := by
  unfold goOn advance
  rw [List.dropWhile_cons_of_pos (by simpa using h)]

theorem advance_of_not_done (h : marks.get? p ≠ some .done) :
    advance marks ((n, p :: names) :: stack) = some (p, ⟨marks, (n, names) :: stack⟩) := by
  unfold advance
  rw [List.dropWhile_cons_of_neg (by simpa using h)]

theorem goOn_onPath (h : marks.get? p = some .onPath) :
    goOn ⟨marks, (n, p :: names) :: stack⟩ kind expand =
      Bounded.lift (.error (.cyclic kind (wayBack ⟨marks, (n, names) :: stack⟩ p))) := by
  unfold goOn
  rw [advance_of_not_done (by simp [h])]
  dsimp only
  rw [h]

theorem goOn_unmarked (h : marks.get? p = none) :
    goOn ⟨marks, (n, p :: names) :: stack⟩ kind expand =
      expand ⟨marks, (n, names) :: stack⟩ p := by
  unfold goOn
  rw [advance_of_not_done (by simp [h])]
  dsimp only
  rw [h]

/-! ### Marks and stack in step -/

/-- A stack that holds a path, which passes no name twice, and marks that tell the names on the path
and those that are done from all others. -/
structure InStep (s : PathSearch) (path done : List String) : Prop where
  path_eq : s.path = path
  once : path.Nodup
  onPath_iff : ∀ n, s.marks.get? n = some .onPath ↔ n ∈ path
  done_iff : ∀ n, s.marks.get? n = some .done ↔ n ∈ done

namespace InStep

theorem new : InStep {} [] [] where
  path_eq := rfl
  once := List.nodup_nil
  onPath_iff n := by simp
  done_iff n := by simp

theorem unmarked_iff (h : s.InStep path done) : s.marks.get? n = none ↔ n ∉ path ∧ n ∉ done := by
  rw [← h.onPath_iff, ← h.done_iff]
  cases s.marks.get? n with
  | none => simp
  | some m => cases m <;> simp

/-- A name without a mark may be put on the path. -/
theorem enter (h : s.InStep path done) (hn : s.marks.get? n = none) (names : List String) :
    (s.enter n names).InStep (path ++ [n]) done := by
  obtain ⟨hoff, -⟩ := h.unmarked_iff.1 hn
  have hmark : ∀ x, (s.enter n names).marks.get? x =
      if x = n then some .onPath else s.marks.get? x := fun x => Table.get?_insert _ _ _ _
  constructor
  case path_eq => exact (path_cons _ _ _ _).trans (congrArg (· ++ [n]) h.path_eq)
  case once =>
    rw [List.nodup_append_comm]
    exact List.nodup_cons.2 ⟨hoff, h.once⟩
  case onPath_iff =>
    intro x
    rw [hmark, List.mem_append, List.mem_singleton, ← h.onPath_iff]
    by_cases hx : x = n <;> simp [hx]
  case done_iff =>
    intro x
    rw [hmark, ← h.done_iff]
    by_cases hx : x = n <;> simp [hx, hn]

/-- The last name on the path is done when it leaves. -/
theorem leave (h : InStep ⟨marks, (n, names) :: stack⟩ (path ++ [n]) done) :
    InStep ⟨marks.insert n .done, stack⟩ path (n :: done) := by
  have honce := h.once
  rw [List.nodup_append_comm] at honce
  obtain ⟨hoff, honce⟩ := List.nodup_cons.1 honce
  have hmark : ∀ x, (marks.insert n Mark.done).get? x =
      if x = n then some .done else marks.get? x := fun x => Table.get?_insert _ _ _ _
  constructor
  case path_eq => exact List.append_cancel_right ((path_cons _ _ _ _).symm.trans h.path_eq)
  case once => exact honce
  case onPath_iff =>
    intro x
    have hx := h.onPath_iff x
    rw [List.mem_append, List.mem_singleton] at hx
    rw [hmark]
    by_cases hxn : x = n
    · subst hxn
      simpa using hoff
    · rw [if_neg hxn]
      exact hx.trans (or_iff_left hxn)
  case done_iff =>
    intro x
    rw [hmark, List.mem_cons, ← h.done_iff]
    by_cases hxn : x = n <;> simp [hxn]

/-- It makes no difference which names are left to be looked at. -/
theorem look (h : InStep ⟨marks, (n, p :: names) :: stack⟩ path done) :
    InStep ⟨marks, (n, names) :: stack⟩ path done :=
  ⟨h.path_eq, h.once, h.onPath_iff, h.done_iff⟩

end InStep

/-! ### What is left to be looked at -/

/-- All names that are left to be looked at have a property. -/
def Awaits (P : String → Prop) (stack : List (String × List String)) : Prop :=
  ∀ e ∈ stack, ∀ p ∈ e.2, P p

theorem Awaits.new (P : String → Prop) : Awaits P ({} : PathSearch).stack := List.forall_mem_nil _

theorem Awaits.enter {P : String → Prop} (h : Awaits P s.stack) (n : String)
    (hnames : ∀ p ∈ names, P p) : Awaits P (s.enter n names).stack :=
  List.forall_mem_cons.2 ⟨hnames, h⟩

/-- What is looked at next was left to be looked at, and all marks are kept. -/
theorem Awaits.advance {P : String → Prop} (h : Awaits P stack)
    (hnext : PathSearch.advance marks stack = some (p, s)) :
    P p ∧ Awaits P s.stack ∧ ∀ x ∈ marks.keys, x ∈ s.marks.keys := by
  induction stack generalizing marks with
  | nil => cases hnext
  | cons e stack ih =>
    obtain ⟨n, names⟩ := e
    obtain ⟨hnames, hstack⟩ := List.forall_mem_cons.1 h
    unfold PathSearch.advance at hnext
    cases hd : names.dropWhile fun p => marks.get? p = some .done with
    | nil =>
      rw [hd] at hnext
      obtain ⟨hp, hs, hmarks⟩ := ih hstack hnext
      refine ⟨hp, hs, fun x hx => hmarks x ?_⟩
      rw [Table.keys_insert]
      split
      · exact hx
      · exact List.mem_append_left _ hx
    | cons q rest =>
      rw [hd] at hnext
      cases hnext
      have hsub : ∀ x ∈ p :: rest, P x := fun x hx =>
        hnames x ((List.dropWhile_sublist _).subset (hd ▸ hx))
      obtain ⟨hq, hrest⟩ := List.forall_mem_cons.1 hsub
      exact ⟨hq, List.forall_mem_cons.2 ⟨hrest, hstack⟩, fun _ hx => hx⟩

/-- The loop goes on alike with expansions that are alike. -/
theorem goOn_congr {P : String → Prop} {expand' : PathSearch → String → Bounded Unit}
    (h : ∀ s p, Awaits P s.stack → P p → expand s p = expand' s p) (hs : Awaits P s.stack) :
    s.goOn kind expand = s.goOn kind expand' := by
  unfold goOn
  cases hnext : advance s.marks s.stack with
  | none => rfl
  | some e =>
    obtain ⟨p, s'⟩ := e
    obtain ⟨hp, hs', -⟩ := hs.advance hnext
    dsimp only
    rw [h s' p hs' hp]

/-- The loop comes to an end if every expansion does that it may go on with. -/
theorem exists_goOn {P : String → Prop} (hs : Awaits P s.stack)
    (h : ∀ s' p, Awaits P s'.stack → P p → (∀ x ∈ s.marks.keys, x ∈ s'.marks.keys) →
      p ∉ s'.marks.keys → ∃ r, (expand s' p).run = some r) :
    ∃ r, (s.goOn kind expand).run = some r := by
  unfold goOn
  cases hnext : advance s.marks s.stack with
  | none => exact ⟨.ok (), rfl⟩
  | some e =>
    obtain ⟨p, s'⟩ := e
    obtain ⟨hp, hs', hmarks⟩ := hs.advance hnext
    dsimp only
    cases hmark : s'.marks.get? p with
    | some m => exact ⟨_, rfl⟩
    | none =>
      refine h s' p hs' hp hmarks ?_
      rw [Table.mem_keys_iff, hmark]
      exact Bool.false_ne_true

/-- What the loop has come to does not change with expansions that come to more. -/
theorem goOn_mono {expand' : PathSearch → String → Bounded Unit}
    (h : ∀ s p r, (expand s p).run = some r → (expand' s p).run = some r) {r : Result Unit}
    (hr : (s.goOn kind expand).run = some r) : (s.goOn kind expand').run = some r := by
  unfold goOn at hr ⊢
  cases hnext : advance s.marks s.stack with
  | none =>
    rw [hnext] at hr
    exact hr
  | some e =>
    obtain ⟨p, s'⟩ := e
    rw [hnext] at hr
    dsimp only at hr ⊢
    cases hmark : s'.marks.get? p with
    | some m =>
      rw [hmark] at hr
      exact hr
    | none =>
      rw [hmark] at hr
      exact h s' p r hr

end PathSearch

open PathSearch

/-! ### The loop and the recursion -/

theorem run_acyclicFrom_succ (limit : Nat) (s : PathSearch) (n : String) :
    (acyclicFrom kind above (limit + 1) s n).run = match above n with
      | .ok names => ((s.enter n names).goOn kind (acyclicFrom kind above limit)).run
      | .error f => some (.error f) := by
  show (Bounded.lift (above n) >>= _).run = _
  rw [Bounded.run_lift_bind]
  cases above n <;> rfl

/-- The names that are left above the last name of the path are visited, with the outcome of the
loop if that fails; else the loop goes on with the rest of the stack, and the name is done. -/
theorem visitAll_of_goOn {limit : Nat} {marks : Table Mark} {n : String}
    {names path done : List String} {stack : List (String × List String)} {r : Result Unit}
    (hs : InStep ⟨marks, (n, names) :: stack⟩ (path ++ [n]) done)
    (h : (goOn ⟨marks, (n, names) :: stack⟩ kind (acyclicFrom kind above limit)).run = some r)
    {enough : Nat} (henough : limit ≤ enough) :
    (∃ f, r = .error f ∧
      (visitAll kind above enough (path ++ [n]) done names).run = some (.error f)) ∨
      ∃ done' marks' limit',
        (visitAll kind above enough (path ++ [n]) done names).run = some (.ok done') ∧
        limit' ≤ limit ∧ InStep ⟨marks', stack⟩ path (n :: done') ∧
        (goOn ⟨marks', stack⟩ kind (acyclicFrom kind above limit')).run = some r := by
  induction limit using Nat.strongRecOn generalizing marks n names path done stack enough with
  | ind limit ih =>
    induction names generalizing done with
    | nil =>
      rw [goOn_leave] at h
      exact .inr ⟨done, _, limit, rfl, Nat.le_refl limit, hs.leave, h⟩
    | cons p names ihnames =>
      rw [run_visitAll_cons]
      cases hmark : marks.get? p with
      | some m => cases m with
        | onPath =>
          have hp := (hs.onPath_iff p).1 hmark
          rw [goOn_onPath hmark, wayBack_eq hs.look.path_eq hp] at h
          rw [if_pos hp]
          exact .inl ⟨_, (Option.some.inj h).symm, rfl⟩
        | done =>
          have hp := (hs.done_iff p).1 hmark
          have hoff : p ∉ path ++ [n] := by
            rw [← hs.onPath_iff, hmark]
            simp
          rw [goOn_done hmark] at h
          rw [if_neg hoff, if_pos hp]
          exact ihnames hs.look h
      | none =>
        obtain ⟨hoff, hp⟩ := hs.unmarked_iff.1 hmark
        rw [goOn_unmarked hmark] at h
        rw [if_neg hoff, if_neg hp]
        cases limit with
        | zero => cases h
        | succ limit =>
          obtain ⟨more, rfl⟩ := Nat.exists_eq_add_of_lt henough
          rw [run_acyclicFrom_succ] at h
          rw [run_visit_succ]
          cases ha : above p with
          | error f =>
            rw [ha] at h
            exact .inl ⟨f, (Option.some.inj h).symm, rfl⟩
          | ok parents =>
            rw [ha] at h
            dsimp only at h ⊢
            -- First come the names above the new one, then those that are left beside it.
            have hentered := hs.look.enter hmark parents
            rcases ih limit (Nat.lt_succ_self limit) hentered h (Nat.le_add_right limit more) with
              ⟨f, rfl, hvisits⟩ | ⟨done₁, marks₁, limit₁, hvisits, hle₁, hs₁, hrest⟩
            · rw [hvisits]
              exact .inl ⟨f, rfl, rfl⟩
            · rw [hvisits]
              have henough₁ : limit₁ ≤ limit + more + 1 := by omega
              rcases ih limit₁ (Nat.lt_succ_of_le hle₁) hs₁ hrest henough₁ with
                hfault | ⟨done₂, marks₂, limit₂, hlater, hle₂, hs₂, hlast⟩
              · exact .inl hfault
              · exact .inr ⟨done₂, marks₂, limit₂, hlater, by omega, hs₂, hlast⟩

section outcomes

variable {start : String} {limit : Nat}

/-- What the loop has come to is what the recursion comes to. -/
theorem run_visited? {r : Result Unit} (h : (acyclic? limit kind above start).run = some r)
    {enough : Nat} (henough : limit ≤ enough) :
    (visited? enough kind above start).run = some r := by
  unfold acyclic? at h
  unfold visited?
  cases limit with
  | zero => cases h
  | succ limit =>
    obtain ⟨more, rfl⟩ := Nat.exists_eq_add_of_lt henough
    rw [run_acyclicFrom_succ] at h
    rw [Bounded.run_bind, run_visit_succ]
    cases ha : above start with
    | error f =>
      rw [ha] at h
      exact h
    | ok names =>
      rw [ha] at h
      dsimp only at h ⊢
      rcases visitAll_of_goOn (InStep.new.enter rfl names) h (Nat.le_add_right limit more) with
        ⟨f, rfl, hvisits⟩ | ⟨done, marks, limit', hvisits, -, -, hlast⟩
      · rw [hvisits]
      · rw [goOn_empty] at hlast
        rw [hvisits]
        exact hlast

/-- A loop that looks only at names with a property depends on nothing else. -/
theorem acyclicFrom_congr {above' : Above} {P : String → Prop}
    (hP : ∀ n p, P n → above.Parent n p → P p) (heq : ∀ n, P n → above n = above' n)
    (limit : Nat) {s : PathSearch} (hs : Awaits P s.stack) {n : String} (hn : P n) :
    acyclicFrom kind above limit s n = acyclicFrom kind above' limit s n := by
  induction limit generalizing s n with
  | zero => rfl
  | succ limit ih =>
    show Bounded.lift (above n) >>= _ = Bounded.lift (above' n) >>= _
    rw [← heq n hn]
    cases habove : above n with
    | error f => rfl
    | ok names =>
      have hnames : ∀ p ∈ names, P p := fun p hp => hP n p hn ⟨names, habove, hp⟩
      exact goOn_congr (fun s p hs hp => ih hs hp) (hs.enter n hnames)

/-- Each expansion marks another known name, so the loop ends before the limit is reached. -/
theorem exists_acyclicFrom {known : List String}
    (hknown : ∀ x ps, above.Reaches start x → above x = .ok ps → x ∈ known) {s : PathSearch}
    (hs : Awaits (above.Reaches start) s.stack) {n : String} (hreach : above.Reaches start n)
    (hn : n ∉ s.marks.keys) (hlimit : (known.filter (· ∉ s.marks.keys)).length < limit) :
    ∃ r, (acyclicFrom kind above limit s n).run = some r := by
  induction limit generalizing s n with
  | zero => omega
  | succ limit ih =>
    rw [run_acyclicFrom_succ]
    cases ha : above n with
    | error f => exact ⟨.error f, rfl⟩
    | ok names =>
      have hnames : ∀ p ∈ names, above.Reaches start p :=
        fun p hp => hreach.step ⟨names, ha, hp⟩
      have hmarked : ∀ x, x ∈ (s.enter n names).marks.keys ↔ x ∈ s.marks.keys ∨ x = n := by
        intro x
        show x ∈ (s.marks.insert n .onPath).keys ↔ _
        rw [Table.keys_insert, if_neg hn, List.mem_append, List.mem_singleton]
      refine exists_goOn (hs.enter n hnames) fun s' p hs' hp hkept hnew => ih hs' hp hnew ?_
      have hless := unseen_lt (hknown n names hreach ha) hn
        (hkept n ((hmarked n).2 (.inr rfl))) fun x hx => hkept x ((hmarked x).2 (.inl hx))
      omega

theorem acyclicFrom_mono {limit' : Nat} (hle : limit ≤ limit') {s : PathSearch} {n : String}
    {r : Result Unit} (h : (acyclicFrom kind above limit s n).run = some r) :
    (acyclicFrom kind above limit' s n).run = some r := by
  induction limit generalizing limit' s n r with
  | zero => cases h
  | succ limit ih =>
    obtain ⟨more, rfl⟩ := Nat.exists_eq_add_of_lt hle
    rw [run_acyclicFrom_succ] at h ⊢
    cases ha : above n with
    | error f =>
      rw [ha] at h
      exact h
    | ok names =>
      rw [ha] at h
      exact goOn_mono (fun s p r hr => ih (Nat.le_add_right limit more) hr) h

end outcomes

end SlotFrame
