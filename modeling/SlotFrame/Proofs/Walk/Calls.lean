import SlotFrame.Walk.Basic

/-! # The calls that a walk makes

What a walk does to its visitor can be told by a visitor that answers as the one it stands for and
notes each call: the node and the place that were given, the state in which the call was made, and
what came of it. The notes change neither the result of a walk nor the state that it leaves, and
each call starts in the state that the one before it left.

Two walks of one value take the same steps. A relation between their programs that all these steps
keep therefore holds between the walks; that the notes change nothing is the first use of this.

Main definitions: `Call`, `Visitor.recorded`, `walkCalls`, `Visitor.Sequence`, `Simulation`.

Main statements: `Simulation.relates_walk` and `run_recorded_walk`. -/

namespace SlotFrame

variable {σ τ α β : Type}

namespace Walk

/-- What a program ends with when it starts in a state, and the state that it leaves. -/
def runFrom (m : Walk σ α) (s : σ) : Result α × σ := m.run.run s

theorem runFrom_pure (a : α) (s : σ) : (pure a : Walk σ α).runFrom s = (.ok a, s) := rfl

theorem runFrom_ofResult (r : Result α) (s : σ) : (ofResult r : Walk σ α).runFrom s = (r, s) := rfl

theorem runFrom_refuse (p : Place) (problem : String) (s : σ) :
    (refuse p problem : Walk σ α).runFrom s =
      (.error (.mismatch p.pointer (problem ++ p.description)), s) := rfl

theorem runFrom_bind (m : Walk σ α) (k : α → Walk σ β) (s : σ) :
    (m >>= k).runFrom s = match m.runFrom s with
      | (.ok a, s₁) => (k a).runFrom s₁
      | (.error f, s₁) => (.error f, s₁) := by
  unfold runFrom ExceptT.run StateT.run
  simp only [bind, ExceptT.bind, ExceptT.mk, StateT.bind, ExceptT.bindCont]
  rcases m s with ⟨outcome, s₁⟩
  cases outcome <;> rfl

variable {m : Walk σ α} {k : α → Walk σ β} {s s₁ : σ}

theorem runFrom_bind_of_ok {a : α} (h : m.runFrom s = (.ok a, s₁)) :
    (m >>= k).runFrom s = (k a).runFrom s₁ := by
  rw [runFrom_bind, h]

theorem runFrom_bind_of_error {f : Fault} (h : m.runFrom s = (.error f, s₁)) :
    (m >>= k).runFrom s = (.error f, s₁) := by
  rw [runFrom_bind, h]

/-- Two programs after each other end well if both do. -/
theorem runFrom_bind_eq_ok_iff {b : β} {s' : σ} : (m >>= k).runFrom s = (.ok b, s') ↔
    ∃ a s₁, m.runFrom s = (.ok a, s₁) ∧ (k a).runFrom s₁ = (.ok b, s') := by
  rcases hm : m.runFrom s with ⟨outcome, s₁⟩
  cases outcome with
  | ok a =>
    rw [runFrom_bind_of_ok hm]
    constructor
    · intro h
      exact ⟨a, s₁, rfl, h⟩
    · rintro ⟨_, _, ⟨⟩, h⟩
      exact h
  | error f =>
    rw [runFrom_bind_of_error hm]
    constructor
    · intro h
      cases h
    · rintro ⟨_, _, ⟨⟩, _⟩

/-- What is done to the outcome of a program is done to its result. -/
theorem runFrom_bind_pure (m : Walk σ α) (f : α → β) (s : σ) :
    (m >>= fun a => pure (f a)).runFrom s = ((m.runFrom s).1.map f, (m.runFrom s).2) := by
  rcases h : m.runFrom s with ⟨outcome, s'⟩
  cases outcome with
  | ok a =>
    rw [runFrom_bind_of_ok h]
    rfl
  | error e =>
    rw [runFrom_bind_of_error h]
    rfl

end Walk

/-! ### Calls -/

/-- A call of a visitor: what it was given, in which state, and what came of it. -/
structure Call (σ : Type) where
  node : Value
  place : Place
  before : σ
  answer : Result Value
  after : σ

namespace Visitor

/-- The call of a visitor for a node at a place, in a state. -/
def call (visit : Visitor σ) (node : Value) (place : Place) (s : σ) : Call σ where
  node
  place
  before := s
  answer := ((visit node place).runFrom s).1
  after := ((visit node place).runFrom s).2

/-- The visitor that also notes its calls. -/
def recorded (visit : Visitor σ) : Visitor (σ × List (Call σ)) := fun node place =>
  ExceptT.mk fun (s, calls) =>
    let c := visit.call node place s
    (c.answer, c.after, calls ++ [c])

theorem runFrom_recorded (visit : Visitor σ) (node : Value) (place : Place) (s : σ)
    (calls : List (Call σ)) :
    (visit.recorded node place).runFrom (s, calls) =
      ((visit.call node place s).answer, (visit.call node place s).after,
        calls ++ [visit.call node place s]) := rfl

/-- Calls of a visitor that lead from a state to another: each starts in the state that the one
before it left. -/
inductive Sequence (visit : Visitor σ) : σ → List (Call σ) → σ → Prop where
  | nil (s : σ) : Sequence visit s [] s
  | cons (node : Value) (place : Place) (s : σ) {calls : List (Call σ)} {s' : σ} :
      Sequence visit (visit.call node place s).after calls s' →
      Sequence visit s (visit.call node place s :: calls) s'

namespace Sequence

variable {visit : Visitor σ} {s s' s'' : σ} {calls calls' : List (Call σ)}

theorem append (h : visit.Sequence s calls s') (h' : visit.Sequence s' calls' s'') :
    visit.Sequence s (calls ++ calls') s'' := by
  induction h with
  | nil => exact h'
  | cons node place s _ ih => exact .cons node place s (ih h')

/-- Each of the calls was answered by the visitor. -/
theorem eq_call_of_mem (h : visit.Sequence s calls s') {c : Call σ} (hc : c ∈ calls) :
    c = visit.call c.node c.place c.before := by
  induction h with
  | nil => cases hc
  | cons node place s _ ih =>
    rcases List.mem_cons.1 hc with rfl | hc
    · rfl
    · exact ih hc

end Sequence

end Visitor

/-- The calls that a walk makes of its visitor when it starts in a state. -/
def walkCalls (r : Registry) (strict : Bool) (visit : Visitor σ) (p : Place) (v : Value) (s : σ) :
    List (Call σ) :=
  ((walk r strict visit.recorded p v).runFrom (s, [])).2.2

/-! ### Two walks of one value -/

/-- A relation between the programs of two walks over one registry that all their steps keep. -/
structure Simulation (r : Registry) (strict strict' : Bool) (visit : Visitor σ)
    (visit' : Visitor τ) (R : ∀ {α : Type}, Walk σ α → Walk τ α → Prop) : Prop where
  result {α : Type} (a : α) : R (pure a) (pure a)
  next {α β : Type} {m : Walk σ α} {m' : Walk τ α} {k : α → Walk σ β} {k' : α → Walk τ β} :
    R m m' → (∀ a, R (k a) (k' a)) → R (m >>= k) (m' >>= k')
  place (p : Place) (key : String) :
    R (Walk.ofResult (r.slotPlace p key)) (Walk.ofResult (r.slotPlace p key))
  call (node : Value) (p : Place) : R (visit node p) (visit' node p)
  demand {α : Type} {m : Walk σ α} {m' : Walk τ α} (bad : Bool) (p : Place) (problem : String) :
    R m m' → R (if bad && strict then Walk.refuse p problem else m)
      (if bad && strict' then Walk.refuse p problem else m')

namespace Simulation

variable {r : Registry} {strict strict' : Bool} {visit : Visitor σ} {visit' : Visitor τ}
  {R : ∀ {α : Type}, Walk σ α → Walk τ α → Prop} (h : Simulation r strict strict' visit visit' R)

include h

theorem relates_scalar (p : Place) (v : Value) :
    R (Walk.scalar strict visit p v) (Walk.scalar strict' visit' p v) :=
  h.demand p.inCollection p _ (h.call v p)

mutual

/-- Two walks of a value are related. -/
theorem relates_walk (p : Place) : (v : Value) →
    R (walk r strict visit p v) (walk r strict' visit' p v)
  | .list items => by
    rw [walk, walk]
    exact h.demand (! p.inCollection) p _
      (h.next (relates_walkItems p.single 0 items) fun _ => h.result _)
  | .record fields => by
    rw [walk, walk]
    cases p.inCollection with
    | true => exact h.next (relates_walkMembers p.single fields) fun _ => h.call _ p
    | false =>
      exact h.next (relates_walkFields (p.enter (.record fields)) fields) fun _ => h.call _ p
  | .null => by
    rw [walk, walk]
    exact h.call .null p
  | .bool b => by
    rw [walk, walk]
    exact h.relates_scalar p (.bool b)
  | .number n => by
    rw [walk, walk]
    exact h.relates_scalar p (.number n)
  | .text t => by
    rw [walk, walk]
    exact h.relates_scalar p (.text t)

theorem relates_walkItems (p : Place) (index : Nat) : (items : List Value) →
    R (walkItems r strict visit p index items) (walkItems r strict' visit' p index items)
  | [] => by
    rw [walkItems, walkItems]
    exact h.result []
  | v :: rest => by
    rw [walkItems, walkItems]
    exact h.next (relates_walk _ v) fun _ =>
      h.next (relates_walkItems p (index + 1) rest) fun _ => h.result _

theorem relates_walkMembers (p : Place) : (members : List (String × Value)) →
    R (walkMembers r strict visit p members) (walkMembers r strict' visit' p members)
  | [] => by
    rw [walkMembers, walkMembers]
    exact h.result []
  | (key, v) :: rest => by
    rw [walkMembers, walkMembers]
    exact h.next (relates_walk _ v) fun _ =>
      h.next (relates_walkMembers p rest) fun _ => h.result _

theorem relates_walkFields (p : Place) : (fields : List (String × Value)) →
    R (walkFields r strict visit p fields) (walkFields r strict' visit' p fields)
  | [] => by
    rw [walkFields, walkFields]
    exact h.result []
  | (key, v) :: rest => by
    rw [walkFields, walkFields]
    refine h.next (h.place p key) fun place => ?_
    exact h.next (relates_walk place v) fun _ =>
      h.next (relates_walkFields p rest) fun _ => h.result _

end

end Simulation

/-! ### Notes change nothing -/

/-- A program with notes ends as the one without, and the notes it adds are calls that lead from the
state where it starts to the state that it leaves. -/
def Recorded (visit : Visitor σ) (m : Walk σ α) (m' : Walk (σ × List (Call σ)) α) : Prop :=
  ∀ s log, ∃ calls, m'.runFrom (s, log) = ((m.runFrom s).1, (m.runFrom s).2, log ++ calls) ∧
    visit.Sequence s calls (m.runFrom s).2

namespace Recorded

variable {visit : Visitor σ}

/-- A program that answers at once notes nothing. -/
theorem of_silent {m : Walk σ α} {m' : Walk (σ × List (Call σ)) α} {a : Result α}
    (hm : ∀ s, m.runFrom s = (a, s)) (hm' : ∀ w, m'.runFrom w = (a, w)) : Recorded visit m m' := by
  intro s log
  refine ⟨[], ?_, ?_⟩
  · rw [hm, hm', List.append_nil]
  · rw [hm]
    exact .nil s

theorem bind {m : Walk σ α} {m' : Walk (σ × List (Call σ)) α} {k : α → Walk σ β}
    {k' : α → Walk (σ × List (Call σ)) β} (hm : Recorded visit m m')
    (hk : ∀ a, Recorded visit (k a) (k' a)) : Recorded visit (m >>= k) (m' >>= k') := by
  intro s log
  obtain ⟨calls, hrun, hcalls⟩ := hm s log
  rcases he : m.runFrom s with ⟨outcome, s₁⟩
  rw [he] at hrun hcalls
  cases outcome with
  | error f =>
    rw [Walk.runFrom_bind_of_error he, Walk.runFrom_bind_of_error hrun]
    exact ⟨calls, rfl, hcalls⟩
  | ok a =>
    obtain ⟨calls', hrun', hcalls'⟩ := hk a s₁ (log ++ calls)
    rw [Walk.runFrom_bind_of_ok he, Walk.runFrom_bind_of_ok hrun]
    exact ⟨calls ++ calls', by rw [hrun', List.append_assoc], hcalls.append hcalls'⟩

theorem call (node : Value) (p : Place) :
    Recorded visit (visit node p) (visit.recorded node p) := by
  intro s log
  exact ⟨[visit.call node p s], rfl, .cons node p s (.nil _)⟩

theorem simulation (r : Registry) (strict : Bool) (visit : Visitor σ) :
    Simulation r strict strict visit visit.recorded (Recorded visit) where
  result a := of_silent (Walk.runFrom_pure a) (Walk.runFrom_pure a)
  next := bind
  place p key := of_silent (Walk.runFrom_ofResult _) (Walk.runFrom_ofResult _)
  call := call
  demand bad p problem hm := by
    cases bad && strict with
    | true => exact of_silent (Walk.runFrom_refuse p problem) (Walk.runFrom_refuse p problem)
    | false => exact hm

end Recorded

/-- A walk ends the same with notes, which are its calls; they lead from the state where it starts
to the state that it leaves. -/
theorem run_recorded_walk (r : Registry) (strict : Bool) (visit : Visitor σ) (p : Place) (v : Value)
    (s : σ) :
    (walk r strict visit.recorded p v).runFrom (s, []) =
      (((walk r strict visit p v).runFrom s).1, ((walk r strict visit p v).runFrom s).2,
        walkCalls r strict visit p v s) ∧
    visit.Sequence s (walkCalls r strict visit p v s) ((walk r strict visit p v).runFrom s).2 := by
  obtain ⟨calls, hrun, hcalls⟩ := (Recorded.simulation r strict visit).relates_walk p v s []
  have hlog : walkCalls r strict visit p v s = calls := by
    unfold walkCalls
    rw [hrun, List.nil_append]
  rw [hlog]
  exact ⟨by rw [hrun, List.nil_append], hcalls⟩

end SlotFrame
