import SlotFrame.Proofs.Walk.PostOrder

/-! # Collections as lists and under keys

Where many values are expected they may stand in a list or under keys. A visitor that does not look
at the keys and indices on the way to a node cannot tell the two apart: members are walked at places
that differ in nothing else, and a walk passes on to its visitor, to the nodes within and to its
faults only what the two places share. The record itself is visited once all its members are; the
list is not.

What becomes of members that are walked one after the other is worked out by `collect`, which knows
neither of the two forms; both are compared with it.

Main definitions: `Place.Alike`, `Visitor.Pathless`, `Walk.Alike`, `collect`.

Main statements: `Walk.alike_walk` (a walk does the same at places alike), `collect_alike` and
`walk_list_keyed`. -/

namespace SlotFrame

variable {σ α β : Type}

/-! ### What does not depend on the way to a node -/

/-- Places that differ at most in the keys and indices that lead there. -/
structure Place.Alike (p q : Place) : Prop where
  inCollection : p.inCollection = q.inCollection
  instanceOf : p.instanceOf = q.instanceOf
  records : p.records = q.records

/-- Faults that differ at most in where a value was refused. -/
inductive Fault.Alike : Fault → Fault → Prop
  | refl (f : Fault) : Alike f f
  | mismatch (path path' message : String) :
    Alike (.mismatch path message) (.mismatch path' message)

/-- The same result, or faults alike. -/
inductive Result.Alike : Result α → Result α → Prop
  | ok (a : α) : Alike (.ok a) (.ok a)
  | error {f g : Fault} (h : f.Alike g) : Alike (.error f) (.error g)

/-- Calls that differ at most in the keys and indices that lead to the node. -/
structure Call.Alike (c d : Call σ) : Prop where
  node : c.node = d.node
  place : c.place.Alike d.place
  before : c.before = d.before
  answer : c.answer = d.answer
  after : c.after = d.after

/-- A visitor that looks at nothing of a place but what is expected there, what the node is an
instance of, and the enclosing records. -/
def Visitor.Pathless (visit : Visitor σ) : Prop :=
  ∀ node (p q : Place), p.Alike q → visit node p = visit node q

namespace Place.Alike

variable {p q : Place} (h : p.Alike q)

include h

theorem single : p.single.Alike q.single := ⟨rfl, h.instanceOf, h.records⟩

theorem child (segment : String) : (p.child segment).Alike (q.child segment) :=
  ⟨h.inCollection, h.instanceOf, h.records⟩

theorem enter (record : Value) : (p.enter record).Alike (q.enter record) :=
  ⟨h.inCollection, h.instanceOf, congrArg (· ++ [record]) h.records⟩

theorem description_eq : p.description = q.description := by
  unfold Place.description
  rw [h.instanceOf]

/-- A key of a record is the same slot at places alike. -/
theorem slotPlace (r : Registry) (key : String) :
    (∃ f, r.slotPlace p key = .error f ∧ r.slotPlace q key = .error f) ∨
      ∃ p' q', r.slotPlace p key = .ok p' ∧ r.slotPlace q key = .ok q' ∧ p'.Alike q' := by
  have hclass : p.className? = q.className? := by
    unfold className?
    rw [h.instanceOf]
  unfold Registry.slotPlace
  rw [hclass]
  cases r.inducedSlot key q.className? with
  | error f => exact .inl ⟨f, rfl, rfl⟩
  | ok slot =>
    cases hrange : r.slotRange slot with
    | error f =>
      refine .inl ⟨f, ?_, ?_⟩
      · simp only [bind, Except.bind, hrange]
      · simp only [bind, Except.bind, hrange]
    | ok range =>
      refine .inr
        ⟨{ p.child key with instanceOf := range, inCollection := slot.multivalued.getD false },
          { q.child key with instanceOf := range, inCollection := slot.multivalued.getD false },
          ?_, ?_, rfl, rfl, h.records⟩
      · simp only [bind, Except.bind, hrange, pure, Except.pure]
      · simp only [bind, Except.bind, hrange, pure, Except.pure]

end Place.Alike

/-! ### Programs that cannot be told apart -/

/-- Ends of two programs with notes: results alike, the same state and notes alike. -/
structure SameEnd (x y : Result α × σ × List (Call σ)) : Prop where
  result : x.1.Alike y.1
  state : x.2.1 = y.2.1
  calls : List.Forall₂ Call.Alike x.2.2 y.2.2

/-- Programs that end the same from every state, whatever notes alike are there. -/
def Walk.Alike (m m' : Walk (σ × List (Call σ)) α) : Prop :=
  ∀ s log log', List.Forall₂ Call.Alike log log' →
    SameEnd (m.runFrom (s, log)) (m'.runFrom (s, log'))

namespace Walk

theorem Alike.pure (a : α) : Alike (Pure.pure a : Walk (σ × List (Call σ)) α) (Pure.pure a) :=
  fun _ _ _ hlog => ⟨.ok a, rfl, hlog⟩

/-- Faults alike end two programs alike at once. -/
theorem Alike.fault {f g : Fault} (h : f.Alike g) :
    Alike (throw f : Walk (σ × List (Call σ)) α) (throw g) :=
  fun _ _ _ hlog => ⟨.error h, rfl, hlog⟩

theorem Alike.bind {m m' : Walk (σ × List (Call σ)) α} {k k' : α → Walk (σ × List (Call σ)) β}
    (hm : Alike m m') (hk : ∀ a, Alike (k a) (k' a)) : Alike (m >>= k) (m' >>= k') := by
  intro s log log' hlog
  have hend := hm s log log' hlog
  rcases h : m.runFrom (s, log) with ⟨outcome, s₁, log₁⟩
  rcases h' : m'.runFrom (s, log') with ⟨outcome', s₁', log₁'⟩
  rw [h, h'] at hend
  obtain ⟨hresult, hstate, hcalls⟩ := hend
  dsimp only at hresult hstate hcalls
  subst hstate
  cases hresult with
  | ok a =>
    rw [runFrom_bind_of_ok h, runFrom_bind_of_ok h']
    exact hk a s₁ log₁ log₁' hcalls
  | error hf =>
    rw [runFrom_bind_of_error h, runFrom_bind_of_error h']
    exact ⟨.error hf, rfl, hcalls⟩

section visits

variable {visit : Visitor σ} (hvisit : visit.Pathless) {p q : Place} (h : p.Alike q)

include h

theorem Alike.refuse (problem : String) :
    Alike (Walk.refuse p problem : Walk (σ × List (Call σ)) α) (Walk.refuse q problem) := by
  unfold Walk.refuse
  rw [h.description_eq]
  exact .fault (.mismatch _ _ _)

include hvisit

theorem Alike.call (node : Value) : Alike (visit.recorded node p) (visit.recorded node q) := by
  intro s log log' hlog
  have hsame := hvisit node p q h
  have hcall : (visit.call node p s).Alike (visit.call node q s) := by
    unfold Visitor.call
    rw [hsame]
    exact ⟨rfl, h, rfl, rfl, rfl⟩
  rw [Visitor.runFrom_recorded, Visitor.runFrom_recorded]
  refine ⟨?_, hcall.after, List.rel_append hlog (.cons hcall .nil)⟩
  dsimp only
  rw [hcall.answer]
  cases (visit.call node q s).answer with
  | ok out => exact .ok out
  | error f => exact .error (.refl f)

theorem Alike.scalar (strict : Bool) (v : Value) :
    Alike (Walk.scalar strict visit.recorded p v) (Walk.scalar strict visit.recorded q v) := by
  unfold Walk.scalar
  rw [h.inCollection]
  split
  · exact .refuse h _
  · exact .call hvisit h v

end visits

variable {r : Registry} {strict : Bool} {visit : Visitor σ}

mutual

/-- A walk does the same at places alike. -/
theorem alike_walk (hvisit : visit.Pathless) {p q : Place} (h : p.Alike q) : (v : Value) →
    Alike (walk r strict visit.recorded p v) (walk r strict visit.recorded q v)
  | .list items => by
    rw [walk, walk, h.inCollection]
    split
    · exact .refuse h _
    · exact (alike_walkItems hvisit h.single 0 items).bind fun _ => .pure _
  | .record fields => by
    rw [walk, walk, h.inCollection]
    cases q.inCollection with
    | true =>
      exact (alike_walkMembers hvisit h.single fields).bind fun _ => .call hvisit h _
    | false =>
      exact (alike_walkFields hvisit (h.enter (.record fields)) fields).bind fun _ =>
        .call hvisit h _
  | .null => by
    rw [walk, walk]
    exact .call hvisit h .null
  | .bool b => by
    rw [walk, walk]
    exact .scalar hvisit h strict (.bool b)
  | .number n => by
    rw [walk, walk]
    exact .scalar hvisit h strict (.number n)
  | .text t => by
    rw [walk, walk]
    exact .scalar hvisit h strict (.text t)

theorem alike_walkItems (hvisit : visit.Pathless) {p q : Place} (h : p.Alike q) (index : Nat) :
    (items : List Value) → Alike (walkItems r strict visit.recorded p index items)
      (walkItems r strict visit.recorded q index items)
  | [] => by
    rw [walkItems, walkItems]
    exact .pure []
  | v :: rest => by
    rw [walkItems, walkItems]
    exact (alike_walk hvisit (h.child (toString index)) v).bind fun _ =>
      (alike_walkItems hvisit h (index + 1) rest).bind fun _ => .pure _

theorem alike_walkMembers (hvisit : visit.Pathless) {p q : Place} (h : p.Alike q) :
    (members : List (String × Value)) → Alike (walkMembers r strict visit.recorded p members)
      (walkMembers r strict visit.recorded q members)
  | [] => by
    rw [walkMembers, walkMembers]
    exact .pure []
  | (key, v) :: rest => by
    rw [walkMembers, walkMembers]
    exact (alike_walk hvisit (h.child key) v).bind fun _ =>
      (alike_walkMembers hvisit h rest).bind fun _ => .pure _

theorem alike_walkFields (hvisit : visit.Pathless) {p q : Place} (h : p.Alike q) :
    (fields : List (String × Value)) → Alike (walkFields r strict visit.recorded p fields)
      (walkFields r strict visit.recorded q fields)
  | [] => by
    rw [walkFields, walkFields]
    exact .pure []
  | (key, v) :: rest => by
    rw [walkFields, walkFields]
    rcases h.slotPlace r key with ⟨f, hp, hq⟩ | ⟨p', q', hp, hq, hplace⟩
    · -- the value is not reached
      rw [hp, hq]
      exact .fault (.refl f)
    · rw [hp, hq]
      exact (alike_walk hvisit hplace v).bind fun _ =>
        (alike_walkFields hvisit h rest).bind fun _ => .pure _

end

end Walk

/-! ### Members one after the other -/

/-- What becomes of members up to the first that fails: the values made of those before it, the
fault, the calls of the visitor, and the state that is left. The member that fails is the one whose
index is the number of the values. -/
structure Collected (σ : Type) where
  values : List Value
  fault : Option Fault
  calls : List (Call σ)
  state : σ

namespace Collected

/-- A member in front of others, with its calls. -/
def cons (value : Value) (calls : List (Call σ)) (c : Collected σ) : Collected σ :=
  { c with values := value :: c.values, calls := calls ++ c.calls }

/-- All values, or the fault. -/
def result (c : Collected σ) : Result (List Value) :=
  match c.fault with
  | none => .ok c.values
  | some f => .error f

theorem result_eq_ok {c : Collected σ} (h : c.fault = none) : c.result = .ok c.values := by
  unfold result
  rw [h]

theorem result_eq_error {c : Collected σ} {f : Fault} (h : c.fault = some f) :
    c.result = .error f := by
  unfold result
  rw [h]

theorem result_cons (value : Value) (calls : List (Call σ)) (c : Collected σ) :
    (c.cons value calls).result = c.result.map (value :: ·) := by
  unfold result cons
  cases c.fault <;> rfl

/-- The same values in the same state after calls alike, and faults alike if any. -/
structure Alike (c d : Collected σ) : Prop where
  values : c.values = d.values
  fault : Option.Rel Fault.Alike c.fault d.fault
  calls : List.Forall₂ Call.Alike c.calls d.calls
  state : c.state = d.state

end Collected

/-- Walks members one after the other, each at its place. -/
def collect (r : Registry) (strict : Bool) (visit : Visitor σ) :
    List (Place × Value) → σ → Collected σ
  | [], s => { values := [], fault := none, calls := [], state := s }
  | (p, v) :: rest, s =>
    let calls := walkCalls r strict visit p v s
    match (walk r strict visit p v).runFrom s with
    | (.ok out, s') => (collect r strict visit rest s').cons out calls
    | (.error f, s') => { values := [], fault := some f, calls, state := s' }

section collect

variable {r : Registry} {strict : Bool} {visit : Visitor σ} {p : Place} {v : Value} {s s' : σ}

theorem collect_cons_of_ok {out : Value}
    (h : (walk r strict visit p v).runFrom s = (.ok out, s')) (rest : List (Place × Value)) :
    collect r strict visit ((p, v) :: rest) s =
      (collect r strict visit rest s').cons out (walkCalls r strict visit p v s) := by
  rw [collect, h]

theorem collect_cons_of_error {f : Fault}
    (h : (walk r strict visit p v).runFrom s = (.error f, s')) (rest : List (Place × Value)) :
    collect r strict visit ((p, v) :: rest) s =
      { values := [], fault := some f, calls := walkCalls r strict visit p v s, state := s' } := by
  rw [collect, h]

/-- At places alike the same becomes of members. -/
theorem collect_alike (hvisit : visit.Pathless) {xs ys : List (Place × Value)}
    (h : List.Forall₂ (fun x y => x.1.Alike y.1 ∧ x.2 = y.2) xs ys) (s : σ) :
    (collect r strict visit xs s).Alike (collect r strict visit ys s) := by
  induction h generalizing s with
  | nil => exact ⟨rfl, .none, .nil, rfl⟩
  | @cons x y xs ys hxy _ ih =>
    obtain ⟨p, v⟩ := x
    obtain ⟨q, w⟩ := y
    obtain ⟨hplace, rfl⟩ := hxy
    have hend : SameEnd ((walk r strict visit.recorded p v).runFrom (s, []))
        ((walk r strict visit.recorded q v).runFrom (s, [])) :=
      Walk.alike_walk hvisit hplace v s [] [] .nil
    rw [(run_recorded_walk r strict visit p v s).1, (run_recorded_walk r strict visit q v s).1]
      at hend
    rcases hp : (walk r strict visit p v).runFrom s with ⟨outcome, s'⟩
    rcases hq : (walk r strict visit q v).runFrom s with ⟨outcome', s''⟩
    rw [hp, hq] at hend
    obtain ⟨hresult, hstate, hcalls⟩ := hend
    dsimp only at hresult hstate hcalls
    subst hstate
    cases hresult with
    | ok out =>
      have hrest := ih s'
      rw [collect_cons_of_ok hp, collect_cons_of_ok hq]
      exact ⟨congrArg (out :: ·) hrest.values, hrest.fault, List.rel_append hcalls hrest.calls,
        hrest.state⟩
    | error hf =>
      rw [collect_cons_of_error hp, collect_cons_of_error hq]
      exact ⟨rfl, .some hf, hcalls, rfl⟩

end collect

/-! ### Notes behind others -/

/-- A program adds its notes behind those that are there and does not look at them. -/
def Appending (m : Walk (σ × List (Call σ)) α) : Prop :=
  ∀ s log, m.runFrom (s, log) =
    ((m.runFrom (s, [])).1, (m.runFrom (s, [])).2.1, log ++ (m.runFrom (s, [])).2.2)

namespace Appending

/-- A program that answers at once notes nothing. -/
theorem of_silent {m : Walk (σ × List (Call σ)) α} {a : Result α}
    (h : ∀ w, m.runFrom w = (a, w)) : Appending m := by
  intro s log
  rw [h, h, List.append_nil]

theorem bind {m : Walk (σ × List (Call σ)) α} {k : α → Walk (σ × List (Call σ)) β}
    (hm : Appending m) (hk : ∀ a, Appending (k a)) : Appending (m >>= k) := by
  intro s log
  have hrun := hm s log
  rcases h : m.runFrom (s, []) with ⟨outcome, s', calls⟩
  rw [h] at hrun
  cases outcome with
  | error f => rw [Walk.runFrom_bind_of_error h, Walk.runFrom_bind_of_error hrun]
  | ok a =>
    rw [Walk.runFrom_bind_of_ok h, Walk.runFrom_bind_of_ok hrun, hk a s' calls,
      hk a s' (log ++ calls), List.append_assoc]

theorem simulation (r : Registry) (strict : Bool) (visit : Visitor σ) :
    Simulation r strict strict visit.recorded visit.recorded fun m _ => Appending m where
  result a := of_silent (Walk.runFrom_pure a)
  next := bind
  place p key := of_silent (Walk.runFrom_ofResult _)
  call node p := fun s log => rfl
  demand bad p problem hm := by
    cases bad && strict with
    | true => exact of_silent (Walk.runFrom_refuse p problem)
    | false => exact hm

end Appending

/-- A walk with notes adds its calls behind the notes that are there. -/
theorem run_recorded_walk_append (r : Registry) (strict : Bool) (visit : Visitor σ) (p : Place)
    (v : Value) (s : σ) (log : List (Call σ)) :
    (walk r strict visit.recorded p v).runFrom (s, log) =
      (((walk r strict visit p v).runFrom s).1, ((walk r strict visit p v).runFrom s).2,
        log ++ walkCalls r strict visit p v s) := by
  rw [(Appending.simulation r strict visit).relates_walk p v s log,
    (run_recorded_walk r strict visit p v s).1]

/-! ### The two forms of a collection -/

/-- The places of values in a list, the first under an index. -/
def Place.items (p : Place) (index : Nat) (values : List Value) : List (Place × Value) :=
  (values.zipIdx index).map fun (v, i) => (p.child (toString i), v)

/-- The places of values under keys. -/
def Place.members (p : Place) (members : List (String × Value)) : List (Place × Value) :=
  members.map fun (key, v) => (p.child key, v)

section forms

variable (r : Registry) (strict : Bool) (visit : Visitor σ) (p : Place)

/-- The items of a list are walked one after the other. -/
theorem run_recorded_walkItems (index : Nat) (values : List Value) (s : σ) (log : List (Call σ)) :
    let c := collect r strict visit (p.items index values) s
    (walkItems r strict visit.recorded p index values).runFrom (s, log) =
      (c.result, c.state, log ++ c.calls) := by
  dsimp only
  induction values generalizing index s log with
  | nil =>
    rw [walkItems, Walk.runFrom_pure]
    exact Prod.ext rfl (Prod.ext rfl (List.append_nil log).symm)
  | cons v rest ih =>
    have hrun := run_recorded_walk_append r strict visit (p.child (toString index)) v s log
    have hitems : p.items index (v :: rest) =
        (p.child (toString index), v) :: p.items (index + 1) rest := rfl
    rw [walkItems, hitems]
    rcases h : (walk r strict visit (p.child (toString index)) v).runFrom s with ⟨outcome, s'⟩
    rw [h] at hrun
    cases outcome with
    | error f =>
      rw [Walk.runFrom_bind_of_error hrun, collect_cons_of_error h]
      rfl
    | ok out =>
      rw [Walk.runFrom_bind_of_ok hrun, collect_cons_of_ok h, Walk.runFrom_bind_pure,
        ih (index + 1), Collected.result_cons, List.append_assoc]
      rfl

/-- The members of a collection under keys are walked one after the other and keep their keys. -/
theorem run_recorded_walkMembers (members : List (String × Value)) (s : σ)
    (log : List (Call σ)) :
    let c := collect r strict visit (p.members members) s
    (walkMembers r strict visit.recorded p members).runFrom (s, log) =
      (c.result.map (keysOf members).zip, c.state, log ++ c.calls) := by
  dsimp only
  induction members generalizing s log with
  | nil =>
    rw [walkMembers, Walk.runFrom_pure]
    exact Prod.ext rfl (Prod.ext rfl (List.append_nil log).symm)
  | cons member rest ih =>
    obtain ⟨key, v⟩ := member
    have hrun := run_recorded_walk_append r strict visit (p.child key) v s log
    have hmembers : p.members ((key, v) :: rest) = (p.child key, v) :: p.members rest := rfl
    rw [walkMembers, hmembers]
    rcases h : (walk r strict visit (p.child key) v).runFrom s with ⟨outcome, s'⟩
    rw [h] at hrun
    cases outcome with
    | error f =>
      rw [Walk.runFrom_bind_of_error hrun, collect_cons_of_error h]
      rfl
    | ok out =>
      rw [Walk.runFrom_bind_of_ok hrun, collect_cons_of_ok h, Walk.runFrom_bind_pure, ih,
        Collected.result_cons, List.append_assoc]
      -- each value joins its key on either side
      cases (collect r strict visit (p.members rest) s').result <;> rfl

variable {p} (hp : p.inCollection = true)

include hp

/-- A list where many values are expected becomes the list of what becomes of its items. -/
theorem run_recorded_walk_list (values : List Value) (s : σ) :
    let c := collect r strict visit (p.single.items 0 values) s
    (walk r strict visit.recorded p (.list values)).runFrom (s, []) =
      (c.result.map .list, c.state, c.calls) := by
  have haccepted : ¬ (! p.inCollection && strict) = true := by
    rw [hp]
    exact Bool.false_ne_true
  dsimp only
  rw [walk, if_neg haccepted, Walk.runFrom_bind_pure, run_recorded_walkItems]
  rfl

/-- A record where many values are expected ends at the first member that fails. -/
theorem run_recorded_walk_record_of_fault {members : List (String × Value)} {s : σ} {f : Fault}
    (h : (collect r strict visit (p.single.members members) s).fault = some f) :
    let c := collect r strict visit (p.single.members members) s
    (walk r strict visit.recorded p (.record members)).runFrom (s, []) =
      (.error f, c.state, c.calls) := by
  have hrun := run_recorded_walkMembers r strict visit p.single members s []
  dsimp only at hrun ⊢
  rw [Collected.result_eq_error h] at hrun
  rw [walk, hp, if_pos rfl]
  exact Walk.runFrom_bind_of_error hrun

/-- A record where many values are expected is visited, with what becomes of its members under
their keys, when none of them fails. -/
theorem run_recorded_walk_record {members : List (String × Value)} {s : σ}
    (h : (collect r strict visit (p.single.members members) s).fault = none) :
    let c := collect r strict visit (p.single.members members) s
    let last := visit.call (.record ((keysOf members).zip c.values)) p c.state
    (walk r strict visit.recorded p (.record members)).runFrom (s, []) =
      (last.answer, last.after, c.calls ++ [last]) := by
  have hrun := run_recorded_walkMembers r strict visit p.single members s []
  dsimp only at hrun ⊢
  rw [Collected.result_eq_ok h] at hrun
  rw [walk, hp, if_pos rfl]
  exact Walk.runFrom_bind_of_ok hrun

end forms

theorem alike_items_members (p : Place) (index : Nat) (members : List (String × Value)) :
    List.Forall₂ (fun x y => x.1.Alike y.1 ∧ x.2 = y.2)
      (p.items index (members.map Prod.snd)) (p.members members) := by
  induction members generalizing index with
  | nil => exact .nil
  | cons member rest ih => exact .cons ⟨⟨rfl, rfl, rfl⟩, rfl⟩ (ih (index + 1))

/-- The result of a walk and its calls, read off a walk with notes. -/
theorem walk_of_run_recorded {r : Registry} {strict : Bool} {visit : Visitor σ} {p : Place}
    {v : Value} {s s' : σ} {outcome : Result Value} {calls : List (Call σ)}
    (h : (walk r strict visit.recorded p v).runFrom (s, []) = (outcome, s', calls)) :
    (walk r strict visit p v).runFrom s = (outcome, s') ∧
      walkCalls r strict visit p v s = calls := by
  rw [(run_recorded_walk r strict visit p v s).1] at h
  simp only [Prod.mk.injEq] at h
  exact ⟨Prod.ext h.1 h.2.1, h.2.2⟩

/-- **Lists and keyed collections are walked alike.** Where many values are expected, and with a
visitor that does not look at the way to a node, values in a list and under keys become the same, up
to the first that fails, after calls alike and in the same state, and what fails is the same member
with the same fault but for where a value was refused. The list makes no other calls; the record
makes one more, for itself with what became of its members under their keys, if none of them
failed. -/
theorem walk_list_keyed {visit : Visitor σ} (hvisit : visit.Pathless) (r : Registry) (strict : Bool)
    {p : Place} (hp : p.inCollection = true) (members : List (String × Value)) (s : σ) :
    let values := members.map Prod.snd
    let listed := collect r strict visit (p.single.items 0 values) s
    let keyed := collect r strict visit (p.single.members members) s
    let last := visit.call (.record ((keysOf members).zip keyed.values)) p keyed.state
    listed.Alike keyed ∧
    (walk r strict visit p (.list values)).runFrom s = (listed.result.map .list, listed.state) ∧
    walkCalls r strict visit p (.list values) s = listed.calls ∧
    (∀ f, keyed.fault = some f →
      (walk r strict visit p (.record members)).runFrom s = (.error f, keyed.state) ∧
      walkCalls r strict visit p (.record members) s = keyed.calls) ∧
    (keyed.fault = none →
      (walk r strict visit p (.record members)).runFrom s = (last.answer, last.after) ∧
      walkCalls r strict visit p (.record members) s = keyed.calls ++ [last]) := by
  intro values listed keyed last
  have halike : listed.Alike keyed :=
    collect_alike hvisit (alike_items_members p.single 0 members) s
  obtain ⟨hlist, hcalls⟩ :=
    walk_of_run_recorded (run_recorded_walk_list r strict visit hp values s)
  refine ⟨halike, hlist, hcalls, fun f hf => ?_, fun hnone => ?_⟩
  · exact walk_of_run_recorded (run_recorded_walk_record_of_fault r strict visit hp hf)
  · exact walk_of_run_recorded (run_recorded_walk_record r strict visit hp hnone)

/-- Where the books of a shelf stand. -/
def booksPlace : Place where
  inCollection := true
  instanceOf := (shelves.class? "Book").map .ofClass
  segments := ["books"]

/-- Two books with a list of tags each, and one between them whose tags are a single text. -/
def books : List (String × Value) :=
  [("b1", .record [("tags", .list [.text "old", .null])]),
   ("b2", .record [("tags", .text "new")]),
   ("b3", .record [("tags", .list [])])]

/-- Makes of every node that holds no others the number of records around it and the number of the
call. -/
def levelling : Visitor Nat := fun node p => do
  modify (· + 1)
  match node with
  | .record fields => return .record fields
  | _ => return .list [.number (.int p.depth), .number (.int (← get))]

/-- A strict walk ends at the second book in either form; a lenient one makes one call more where
the books stand under keys. -/
theorem walk_list_keyed_books :
    levelling.Pathless ∧ booksPlace.inCollection = true ∧
    (let values := books.map Prod.snd
     let listed := collect shelves true levelling (booksPlace.single.items 0 values) 0
     let keyed := collect shelves true levelling (booksPlace.single.members books) 0
     listed.Alike keyed ∧ keyed.values.length = 1 ∧ keyed.calls.length = 3 ∧
      (walk shelves true levelling booksPlace (.list values)).runFrom 0 =
        (.error (.mismatch "/books/1/tags" "expected array, found \"new\""), 3) ∧
      (walk shelves true levelling booksPlace (.record books)).runFrom 0 =
        (.error (.mismatch "/books/b2/tags" "expected array, found \"new\""), 3)) ∧
    (let values := books.map Prod.snd
     let listed := collect shelves false levelling (booksPlace.single.items 0 values) 0
     let keyed := collect shelves false levelling (booksPlace.single.members books) 0
     listed.Alike keyed ∧ listed.calls.length = 6 ∧
      walkCalls shelves false levelling booksPlace (.list values) 0 = listed.calls ∧
      walkCalls shelves false levelling booksPlace (.record books) 0 = keyed.calls ++
        [levelling.call (.record ((keysOf books).zip keyed.values)) booksPlace 6]) := by
  have hvisit : levelling.Pathless := by
    intro node p q h
    unfold levelling Place.depth
    rw [h.records]
  obtain ⟨hstrict, hlisted, _, hfault, _⟩ :=
    walk_list_keyed hvisit shelves true (p := booksPlace) rfl books 0
  obtain ⟨hlenient, _, hcalls, _, hnone⟩ :=
    walk_list_keyed hvisit shelves false (p := booksPlace) rfl books 0
  exact ⟨hvisit, rfl, ⟨hstrict, rfl, rfl, hlisted, (hfault _ rfl).1⟩,
    ⟨hlenient, rfl, hcalls, (hnone rfl).2⟩⟩

end SlotFrame
