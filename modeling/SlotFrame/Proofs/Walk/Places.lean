import SlotFrame.Proofs.Registry.Faults
import SlotFrame.Proofs.Walk.Pointers
import SlotFrame.Proofs.Walk.PostOrder

/-! # Where a visitor is called

What a node of a value is walked as depends on the nodes that lead to it and on nothing else: below
a list and below a collection under keys a single value of the same kind is expected, below a record
what the slot of the key allows. The place that a visitor is given tells what its node is walked as,
the keys and indices that lead to it, and the records on the way as they stood in the value, without
the collections under keys; this is so of every call, also of a walk that fails later.

A step of a walk keeps this, whatever the visitor makes of the nodes. So a walk that refuses a node
itself tells the pointer of a node that is not what is expected there.

Main definitions: `Expectation`, `Registry.nodeAt?`, `Registry.enclosing`, `Registry.Stands`,
`Tours`.

Main statements: `Registry.Stands.field` and its kin (each step), `Tours.walk` (a whole walk) and
`walk_places`. -/

namespace SlotFrame

variable {σ α β : Type}

/-! ### What is expected of a node -/

/-- What a node is walked as: whether many values are expected, and what it is an instance of. -/
structure Expectation where
  inCollection : Bool := false
  instanceOf : Option InstanceOf := none
  deriving Repr, Inhabited

/-- What is expected at a place. -/
def Place.expectation (p : Place) : Expectation := ⟨p.inCollection, p.instanceOf⟩

namespace Expectation

/-- The same where one value is expected. -/
def single (e : Expectation) : Expectation := { e with inCollection := false }

/-- The class whose slots the keys of a record are. -/
def className? (e : Expectation) : Option String :=
  (e.instanceOf.bind InstanceOf.class?).map ClassDef.name

/-- The place at the top of a value. -/
def top (e : Expectation) : Place := { inCollection := e.inCollection, instanceOf := e.instanceOf }

end Expectation

/-- The nodes directly below a node, each under its key or index. -/
def Value.children : Value → List (String × Value)
  | .list items => items.zipIdx.map fun (v, i) => (toString i, v)
  | .record fields => fields
  | .null | .bool _ | .number _ | .text _ => []

/-- Every item of a list stands under its index. -/
theorem Value.lookupKey_children_list {items : List Value} {i : Nat} {u : Value}
    (hu : items[i]? = some u) : lookupKey (toString i) (Value.list items).children = some u := by
  have hkeys : keysOf (Value.list items).children =
      (List.range' 0 items.length).map toString := by
    rw [← List.zipIdx_map_snd 0 items, List.map_map]
    unfold keysOf children
    rw [List.map_map]
    rfl
  refine lookupKey_of_mem ?_ ?_
  · rw [hkeys]
    exact (List.nodup_range' 1).map fun _ _ hij => Value.toString_injective hij
  · exact List.mem_map.2 ⟨(u, i), List.mem_zipIdx_iff_getElem?.2 hu, rfl⟩

namespace Registry

variable (r : Registry)

/-- What the slot of a key allows in a record. -/
def fieldExpectation (e : Expectation) (key : String) : Result Expectation := do
  let slot ← r.inducedSlot key e.className?
  let range ← r.slotRange slot
  return ⟨slot.multivalued.getD false, range⟩

/-- What is expected directly below a node, if that can be told. -/
def expectedBelow? (e : Expectation) (node : Value) (segment : String) : Option Expectation :=
  match node with
  | .record _ => if e.inCollection then some e.single else (r.fieldExpectation e segment).toOption
  | _ => some e.single

/-- The node that keys and indices lead to from another, and what it is walked as. -/
def nodeAt? (node : Value) (e : Expectation) : List String → Option (Value × Expectation)
  | [] => some (node, e)
  | segment :: rest => do
    let below ← lookupKey segment node.children
    let e ← r.expectedBelow? e node segment
    nodeAt? below e rest

/-- The node that keys and indices lead to, if it is walked as a record. -/
def recordAt? (v : Value) (e : Expectation) (path : List String) : Option Value :=
  match r.nodeAt? v e path with
  | some (.record fields, e') => if e'.inCollection then none else some (.record fields)
  | _ => none

/-- The records around the node that keys and indices lead to, the outermost first: the nodes at the
proper beginnings of the path that are walked as records. -/
def enclosing (v : Value) (e : Expectation) (path : List String) : List Value :=
  (List.range path.length).filterMap fun n => r.recordAt? v e (path.take n)

/-- One key or index further. -/
theorem nodeAt?_concat (v : Value) (e : Expectation) (path : List String) (segment : String) :
    r.nodeAt? v e (path ++ [segment]) = (r.nodeAt? v e path).bind fun (w, e') =>
      (lookupKey segment w.children).bind fun u =>
        (r.expectedBelow? e' w segment).map fun e'' => (u, e'') := by
  induction path generalizing v e with
  | nil =>
    show ((lookupKey segment v.children).bind fun u => (r.expectedBelow? e v segment).bind _) =
      (lookupKey segment v.children).bind fun u => (r.expectedBelow? e v segment).map _
    cases lookupKey segment v.children with
    | none => rfl
    | some u => cases r.expectedBelow? e v segment <;> rfl
  | cons first path ih =>
    show ((lookupKey first v.children).bind fun u => (r.expectedBelow? e v first).bind _) =
      Option.bind ((lookupKey first v.children).bind fun u =>
        (r.expectedBelow? e v first).bind _) _
    cases lookupKey first v.children with
    | none => rfl
    | some u =>
      cases r.expectedBelow? e v first with
      | none => rfl
      | some e' => exact ih u e'

theorem enclosing_concat (v : Value) (e : Expectation) (path : List String) (segment : String) :
    r.enclosing v e (path ++ [segment]) =
      r.enclosing v e path ++ (r.recordAt? v e path).toList := by
  have hproper : ∀ n ∈ List.range path.length,
      r.recordAt? v e ((path ++ [segment]).take n) = r.recordAt? v e (path.take n) := by
    intro n hn
    rw [List.take_append_of_le_length (Nat.le_of_lt (List.mem_range.1 hn))]
  have hwhole : (path ++ [segment]).take path.length = path := List.take_left
  unfold enclosing
  rw [List.length_append, List.length_singleton, List.range_succ, List.filterMap_append,
    List.filterMap_congr hproper]
  congr 1
  rw [List.filterMap_cons, List.filterMap_nil, hwhole]
  cases r.recordAt? v e path <;> rfl

variable {r} {v w u : Value} {e : Expectation} {p q : Place} {key : String}

theorem slotPlace_eq_ok_iff : r.slotPlace p key = .ok q ↔
    ∃ e', r.fieldExpectation p.expectation key = .ok e' ∧
      q = { p.child key with inCollection := e'.inCollection, instanceOf := e'.instanceOf } := by
  unfold slotPlace fieldExpectation
  simp only [Result.bind_eq_ok_iff]
  constructor
  · rintro ⟨slot, hslot, range, hrange, hq⟩
    cases hq
    exact ⟨_, ⟨slot, hslot, range, hrange, rfl⟩, rfl⟩
  · rintro ⟨_, ⟨slot, hslot, range, hrange, he⟩, rfl⟩
    cases he
    exact ⟨slot, hslot, range, hrange, rfl⟩

/-! ### Places of nodes -/

/-- A place tells of a node of a value what it is walked as, and the records around it. -/
structure Stands (r : Registry) (v : Value) (e : Expectation) (p : Place) (w : Value) : Prop where
  node : r.nodeAt? v e p.segments = some (w, p.expectation)
  records : p.records = r.enclosing v e p.segments

namespace Stands

theorem top (r : Registry) (v : Value) (e : Expectation) : r.Stands v e e.top v where
  node := rfl
  records := rfl

/-- The place of a node directly below, where the way there is longer by its key or index. -/
theorem below {segment : String} {e' : Expectation} (h : r.Stands v e p w)
    (hu : lookupKey segment w.children = some u)
    (he : r.expectedBelow? p.expectation w segment = some e') (hq : q.expectation = e')
    (hsegments : q.segments = p.segments ++ [segment])
    (hrecords : q.records = p.records ++ (r.recordAt? v e p.segments).toList) :
    r.Stands v e q u where
  node := by
    rw [hsegments, nodeAt?_concat, h.node]
    simp [hu, he, hq]
  records := by rw [hsegments, enclosing_concat, hrecords, h.records]

theorem recordAt?_eq_none (h : r.Stands v e p w)
    (hw : ∀ fields, w = .record fields → p.inCollection = true) :
    r.recordAt? v e p.segments = none := by
  unfold recordAt?
  rw [h.node]
  cases w with
  | record fields => exact if_pos (hw fields rfl)
  | null | bool b | number n | text t | list items => rfl

/-- The place of an item of a list. -/
theorem item {items : List Value} {i : Nat} (h : r.Stands v e p (.list items))
    (hu : items[i]? = some u) : r.Stands v e (p.single.child (toString i)) u := by
  refine h.below (Value.lookupKey_children_list hu) rfl rfl rfl ?_
  rw [h.recordAt?_eq_none nofun]
  exact (List.append_nil _).symm

/-- The place of a member of a collection under keys. -/
theorem member {fields : List (String × Value)} (h : r.Stands v e p (.record fields))
    (hp : p.inCollection = true) (hu : lookupKey key fields = some u) :
    r.Stands v e (p.single.child key) u := by
  refine h.below hu (if_pos hp) rfl rfl ?_
  rw [h.recordAt?_eq_none fun _ _ => hp]
  exact (List.append_nil _).symm

/-- The place of a field of a record. -/
theorem field {fields : List (String × Value)} (h : r.Stands v e p (.record fields))
    (hp : p.inCollection = false) (hu : lookupKey key fields = some u)
    (hq : r.slotPlace (p.enter (.record fields)) key = .ok q) : r.Stands v e q u := by
  obtain ⟨e', he, rfl⟩ := slotPlace_eq_ok_iff.1 hq
  have hsingle : ¬ p.expectation.inCollection = true := by
    show ¬ p.inCollection = true
    rw [hp]
    exact Bool.false_ne_true
  have hrecord : r.recordAt? v e p.segments = some (.record fields) := by
    unfold recordAt?
    rw [h.node]
    exact if_neg hsingle
  have hbelow : r.expectedBelow? p.expectation (.record fields) key = some e' := by
    show (if p.expectation.inCollection then some p.expectation.single
      else (r.fieldExpectation p.expectation key).toOption) = some e'
    rw [if_neg hsingle, show r.fieldExpectation p.expectation key = .ok e' from he]
    rfl
  refine h.below hu hbelow rfl rfl ?_
  rw [hrecord]
  rfl

end Stands

/-! ### Nodes that are refused -/

/-- The pointer of a node that a strict walk refuses: a list where one value is expected, or a
single value other than null where many are. -/
def Misfit (r : Registry) (v : Value) (e : Expectation) (pointer : String) : Prop :=
  ∃ path w e', r.nodeAt? v e path = some (w, e') ∧ pointer = ({ segments := path } : Place).pointer ∧
    ((∃ items, w = .list items) ∧ e'.inCollection = false ∨
      w.isScalar = true ∧ w ≠ .null ∧ e'.inCollection = true)

/-- A fault that a walk of a value may come to by itself: where it refuses a node, it is strict and
tells the pointer of one that does not fit. -/
def Refuses (r : Registry) (strict : Bool) (v : Value) (e : Expectation) (f : Fault) : Prop :=
  ∀ pointer message, f = .mismatch pointer message → strict = true ∧ r.Misfit v e pointer

theorem refuses_lookup {strict : Bool} {f : Fault} (h : r.slotPlace p key = .error f) :
    r.Refuses strict v e f := by
  rintro pointer message rfl
  cases fault_of_slotPlace h

theorem Stands.misfit (h : r.Stands v e p w)
    (hw : (∃ items, w = .list items) ∧ p.inCollection = false ∨
      w.isScalar = true ∧ w ≠ .null ∧ p.inCollection = true) : r.Misfit v e p.pointer :=
  ⟨p.segments, w, p.expectation, h.node, rfl, hw⟩

end Registry

/-! ### Calls at their places -/

/-- The keys and indices that lead to the node of a call. -/
def Call.path (c : Call σ) : List String := c.place.segments

/-- A call of a visitor for a node of a value: its place tells of that node, and a node that holds
no others is given as it is. -/
def Call.At (r : Registry) (v : Value) (e : Expectation) (c : Call σ) : Prop :=
  ∃ w, r.Stands v e c.place w ∧ (w.isScalar = true → c.node = w)

/-- A program with notes goes through the nodes at some paths: its calls are at the first of them,
in order, and at all of them if it ends well; if it fails, a call has failed or the fault is one of
its own. -/
def Tours (At : Call σ → Prop) (Own : Fault → Prop) (m : Walk (σ × List (Call σ)) α)
    (paths : List (List String)) : Prop :=
  ∀ w, ∃ calls, (m.runFrom w).2.2 = w.2 ++ calls ∧ (∀ c ∈ calls, At c) ∧
    match (m.runFrom w).1 with
    | .ok _ => calls.map Call.path = paths
    | .error f => calls.map Call.path <+: paths ∧ (Own f ∨ ∃ c ∈ calls, c.answer = .error f)

namespace Tours

variable {At : Call σ → Prop} {Own : Fault → Prop} {m : Walk (σ × List (Call σ)) α}
  {k : α → Walk (σ × List (Call σ)) β} {paths paths' : List (List String)}

theorem pure (a : α) : Tours At Own (Pure.pure a) [] := by
  intro w
  exact ⟨[], (List.append_nil _).symm, List.forall_mem_nil _, rfl⟩

theorem fault {f : Fault} (h : Own f) (hm : ∀ w, m.runFrom w = (.error f, w)) :
    Tours At Own m paths := by
  intro w
  rw [hm]
  exact ⟨[], (List.append_nil _).symm, List.forall_mem_nil _, List.nil_prefix, .inl h⟩

/-- What ends well without a call does not count. -/
theorem ofResult {r : Result α} (hown : ∀ f, r = .error f → Own f)
    (hk : ∀ a, r = .ok a → Tours At Own (k a) paths) :
    Tours At Own (Walk.ofResult r >>= k) paths := by
  cases r with
  | ok a => exact hk a rfl
  | error f => exact fault (hown f rfl) fun w => rfl

theorem bind (hm : Tours At Own m paths) (hk : ∀ a, Tours At Own (k a) paths') :
    Tours At Own (m >>= k) (paths ++ paths') := by
  intro w
  obtain ⟨calls, hlog, hat, hend⟩ := hm w
  rcases hrun : m.runFrom w with ⟨outcome, w₁⟩
  rw [hrun] at hlog hend
  cases outcome with
  | error f =>
    rw [Walk.runFrom_bind_of_error hrun]
    exact ⟨calls, hlog, hat, hend.1.trans (List.prefix_append _ _), hend.2⟩
  | ok a =>
    obtain ⟨calls', hlog', hat', hend'⟩ := hk a w₁
    rw [Walk.runFrom_bind_of_ok hrun]
    refine ⟨calls ++ calls', by rw [hlog', hlog, List.append_assoc], ?_, ?_⟩
    · intro c hc
      rcases List.mem_append.1 hc with hc | hc
      · exact hat c hc
      · exact hat' c hc
    · rw [List.map_append, show calls.map Call.path = paths from hend]
      cases h : ((k a).runFrom w₁).1 with
      | ok b =>
        rw [h] at hend'
        exact congrArg (paths ++ ·) hend'
      | error f =>
        rw [h] at hend'
        refine ⟨(List.prefix_append_right_inj paths).2 hend'.1, ?_⟩
        exact hend'.2.imp_right fun ⟨c, hc, hf⟩ => ⟨c, List.mem_append_right _ hc, hf⟩

/-- The result of a program does not matter. -/
theorem map {f : α → β} (hm : Tours At Own m paths) :
    Tours At Own (m >>= fun a => Pure.pure (f a)) paths := by
  have h := hm.bind (k := fun a => Pure.pure (f a)) fun a => pure (f a)
  rwa [List.append_nil] at h

theorem call (visit : Visitor σ) {node : Value} {p : Place}
    (h : ∀ s, At (visit.call node p s)) : Tours At Own (visit.recorded node p) [p.segments] := by
  rintro ⟨s, log⟩
  rw [Visitor.runFrom_recorded]
  refine ⟨[visit.call node p s], rfl, ?_, ?_⟩
  · intro c hc
    rw [List.mem_singleton.1 hc]
    exact h s
  · cases hanswer : (visit.call node p s).answer with
    | ok out => rfl
    | error f => exact ⟨List.prefix_rfl, .inr ⟨_, List.mem_singleton_self _, hanswer⟩⟩

/-! ### Whole walks -/

section walks

variable {r : Registry} {strict : Bool} {visit : Visitor σ} {v : Value} {e : Expectation}

theorem scalar {p : Place} {w : Value} (h : r.Stands v e p w) (hleaf : w.isScalar = true)
    (hnull : w ≠ .null) : Tours (Call.At r v e) (r.Refuses strict v e)
      (Walk.scalar strict visit.recorded p w) [p.segments] := by
  unfold Walk.scalar
  split
  · rename_i hrefused
    rw [Bool.and_eq_true] at hrefused
    refine fault ?_ fun w => Walk.runFrom_refuse p _ w
    intro pointer message hf
    cases hf
    exact ⟨hrefused.2, h.misfit (.inr ⟨hleaf, hnull, hrefused.1⟩)⟩
  · exact call visit fun s => ⟨w, h, fun _ => rfl⟩

mutual

/-- A walk goes through the nodes that are no lists, each at its place. -/
theorem walk (p : Place) : (w : Value) → w.Keyed → r.Stands v e p w →
    Tours (Call.At r v e) (r.Refuses strict v e) (SlotFrame.walk r strict visit.recorded p w)
      (w.nodePaths p.segments)
  | .list items, hkeyed, h => by
    rw [Value.Keyed] at hkeyed
    rw [SlotFrame.walk, Value.nodePaths]
    split
    · rename_i hrefused
      rw [Bool.and_eq_true, Bool.not_eq_true'] at hrefused
      refine fault ?_ fun w => Walk.runFrom_refuse p _ w
      intro pointer message hf
      cases hf
      exact ⟨hrefused.2, h.misfit (.inl ⟨⟨items, rfl⟩, hrefused.1⟩)⟩
    · refine map (walkItems p h 0 items (fun i u hu => ?_) hkeyed)
      rwa [Nat.zero_add]
  | .record fields, hkeyed, h => by
    rw [Value.Keyed] at hkeyed
    have hlookup : ∀ m ∈ fields, lookupKey m.1 fields = some m.2 := fun m hm =>
      lookupKey_of_mem hkeyed.1 hm
    have hvisit : ∀ outs, Tours (Call.At r v e) (r.Refuses strict v e)
        (visit.recorded (.record outs) p) [p.segments] := fun outs =>
      call visit fun s => ⟨.record fields, h, nofun⟩
    rw [SlotFrame.walk, Value.nodePaths]
    cases hp : p.inCollection with
    | true => exact bind (walkMembers p h hp fields hlookup hkeyed.2) hvisit
    | false => exact bind (walkFields p h hp fields hlookup hkeyed.2) hvisit
  | .null, _, h => by
    rw [SlotFrame.walk, Value.nodePaths]
    exact call visit fun s => ⟨.null, h, fun _ => rfl⟩
  | .bool b, _, h => by
    rw [SlotFrame.walk, Value.nodePaths]
    exact scalar h rfl nofun
  | .number n, _, h => by
    rw [SlotFrame.walk, Value.nodePaths]
    exact scalar h rfl nofun
  | .text t, _, h => by
    rw [SlotFrame.walk, Value.nodePaths]
    exact scalar h rfl nofun

theorem walkItems (p : Place) {all : List Value} (h : r.Stands v e p (.list all)) (index : Nat) :
    (items : List Value) → (∀ i u, items[i]? = some u → all[index + i]? = some u) →
    Value.KeyedList items → Tours (Call.At r v e) (r.Refuses strict v e)
      (SlotFrame.walkItems r strict visit.recorded p.single index items)
      (Value.itemPaths p.segments index items)
  | [], _, _ => by
    rw [SlotFrame.walkItems, Value.itemPaths]
    exact pure []
  | w :: rest, hall, hkeyed => by
    rw [Value.KeyedList] at hkeyed
    have hitem : all[index]? = some w := hall 0 w rfl
    have hrest : ∀ i u, rest[i]? = some u → all[index + 1 + i]? = some u := by
      intro i u hu
      rw [Nat.add_assoc, Nat.add_comm 1 i]
      exact hall (i + 1) u hu
    rw [SlotFrame.walkItems, Value.itemPaths]
    exact bind (walk _ w hkeyed.1 (h.item hitem)) fun out =>
      map (walkItems p h (index + 1) rest hrest hkeyed.2)

theorem walkMembers (p : Place) {all : List (String × Value)}
    (h : r.Stands v e p (.record all)) (hp : p.inCollection = true) :
    (members : List (String × Value)) → (∀ m ∈ members, lookupKey m.1 all = some m.2) →
    Value.KeyedFields members → Tours (Call.At r v e) (r.Refuses strict v e)
      (SlotFrame.walkMembers r strict visit.recorded p.single members)
      (Value.fieldPaths p.segments members)
  | [], _, _ => by
    rw [SlotFrame.walkMembers, Value.fieldPaths]
    exact pure []
  | (key, w) :: rest, hall, hkeyed => by
    rw [Value.KeyedFields] at hkeyed
    have hmember : lookupKey key all = some w := hall _ List.mem_cons_self
    rw [SlotFrame.walkMembers, Value.fieldPaths]
    exact bind (walk _ w hkeyed.1 (h.member hp hmember)) fun out =>
      map (walkMembers p h hp rest (fun m hm => hall m (List.mem_cons_of_mem _ hm)) hkeyed.2)

theorem walkFields (p : Place) {all : List (String × Value)}
    (h : r.Stands v e p (.record all)) (hp : p.inCollection = false) :
    (fields : List (String × Value)) → (∀ m ∈ fields, lookupKey m.1 all = some m.2) →
    Value.KeyedFields fields → Tours (Call.At r v e) (r.Refuses strict v e)
      (SlotFrame.walkFields r strict visit.recorded (p.enter (.record all)) fields)
      (Value.fieldPaths p.segments fields)
  | [], _, _ => by
    rw [SlotFrame.walkFields, Value.fieldPaths]
    exact pure []
  | (key, w) :: rest, hall, hkeyed => by
    rw [Value.KeyedFields] at hkeyed
    have hfield : lookupKey key all = some w := hall _ List.mem_cons_self
    rw [SlotFrame.walkFields, Value.fieldPaths]
    refine ofResult (fun f hf => Registry.refuses_lookup hf) fun q hq => ?_
    have hsegments : q.segments = p.segments ++ [key] :=
      Registry.segments_of_slotPlace (p := p.enter (.record all)) hq
    rw [← hsegments]
    exact bind (walk q w hkeyed.1 (h.field hp hfield hq)) fun out =>
      map (walkFields p h hp rest (fun m hm => hall m (List.mem_cons_of_mem _ hm)) hkeyed.2)

end

end walks

end Tours

/-! ### Calls beside their paths -/

namespace Call

section zip

variable {calls : List (Call σ)} {paths : List (List String)} (h : calls.map path <+: paths)

include h

/-- What is at the first of some paths, in order, is at its own. -/
theorem path_of_mem_zip {x : List String × Call σ} (hx : x ∈ paths.zip calls) :
    x.2.path = x.1 := by
  induction calls generalizing paths with
  | nil =>
    rw [List.zip_nil_right] at hx
    cases hx
  | cons c calls ih =>
    obtain ⟨rest, rfl⟩ := h
    rcases List.mem_cons.1 hx with rfl | hx
    · rfl
    · exact ih ⟨rest, rfl⟩ hx

theorem map_fst_zip : (paths.zip calls).map Prod.fst = calls.map path := by
  induction calls generalizing paths with
  | nil => rw [List.zip_nil_right, List.map_nil, List.map_nil]
  | cons c calls ih =>
    obtain ⟨rest, rfl⟩ := h
    exact congrArg (c.path :: ·) (ih ⟨rest, rfl⟩)

theorem map_snd_zip : (paths.zip calls).map Prod.snd = calls := by
  refine List.map_snd_zip ?_
  have hlength := h.length_le
  rwa [List.length_map] at hlength

end zip

/-- The pointer of a call is read back as its path. -/
theorem segmentsOf_pointer {c : Call σ} (h : c.path ≠ []) :
    Place.segmentsOf c.place.pointer = c.path := Place.segmentsOf_pointer h

/-- Calls at distinct paths have distinct pointers, but for the top. -/
theorem pairwise_pointer {visited : List (List String × Call σ)}
    (hpath : ∀ x ∈ visited, x.2.path = x.1) (hdistinct : (visited.map Prod.fst).Nodup) :
    visited.Pairwise fun x y =>
      x.1 ≠ [] → y.1 ≠ [] → x.2.place.pointer ≠ y.2.place.pointer := by
  rw [List.Nodup, List.pairwise_map] at hdistinct
  refine hdistinct.imp_of_mem fun {x y} hx hy hne htop htop' hsame => hne ?_
  rw [← hpath x hx] at htop ⊢
  rw [← hpath y hy] at htop' ⊢
  rw [← segmentsOf_pointer htop, hsame, segmentsOf_pointer htop']

end Call

/-- The calls of a walk are at the first of the nodes, in order; a mismatch that no call has come to
is that of a node that does not fit. -/
theorem walkCalls_tour (r : Registry) (strict : Bool) (visit : Visitor σ) {v : Value} (hv : v.Keyed)
    (e : Expectation) (s : σ) :
    let calls := walkCalls r strict visit e.top v s
    calls.map Call.path <+: v.nodePaths [] ∧ (∀ c ∈ calls, c.At r v e) ∧
      ∀ f, ((walk r strict visit e.top v).runFrom s).1 = .error f →
        r.Refuses strict v e f ∨ ∃ c ∈ calls, c.answer = .error f := by
  intro calls
  have htour : Tours (Call.At r v e) (r.Refuses strict v e)
      (SlotFrame.walk r strict visit.recorded e.top v) (v.nodePaths []) :=
    .walk e.top v hv (.top r v e)
  obtain ⟨calls', hlog, hat, hend⟩ := htour (s, [])
  rw [(run_recorded_walk r strict visit e.top v s).1] at hlog hend
  have hcalls : calls = calls' := hlog
  rw [hcalls]
  cases hrun : ((walk r strict visit e.top v).runFrom s).1 with
  | ok out =>
    rw [hrun] at hend
    have hend : calls'.map Call.path = v.nodePaths [] := hend
    exact ⟨hend ▸ List.prefix_rfl, hat, nofun⟩
  | error f =>
    rw [hrun] at hend
    refine ⟨hend.1, hat, fun f' hf => ?_⟩
    cases hf
    exact hend.2

/-- **A place tells where its node is.** Wherever a walk of a value begins that knows of no records
around it, its calls are at the first of the nodes that are no lists, in post-order. The place that
a call is given tells what the node at that path is walked as, and the records around it are the
nodes of the value at the proper beginnings of the path that are walked as records, as they stood
before the walk; unless it is at the top its pointer is read back as the path, so no two other nodes
have one pointer. A walk that fails with a mismatch that no call has come to is strict and tells the
pointer of a list where one value is expected, or of a single value other than null where many are.
-/
theorem walk_places (r : Registry) (strict : Bool) (visit : Visitor σ) {v : Value} (hv : v.Keyed)
    (e : Expectation) (s : σ) :
    let calls := walkCalls r strict visit e.top v s
    let visited := (v.nodePaths []).zip calls
    visited.map Prod.snd = calls ∧
    (∀ path c, (path, c) ∈ visited →
      (∃ w, r.nodeAt? v e path = some (w, c.place.expectation) ∧
        (w.isScalar = true → c.node = w)) ∧
      c.place.records = r.enclosing v e path ∧
      c.place.depth = (r.enclosing v e path).length ∧
      (path ≠ [] → Place.segmentsOf c.place.pointer = path)) ∧
    (visited.Pairwise fun x y =>
      x.1 ≠ [] → y.1 ≠ [] → x.2.place.pointer ≠ y.2.place.pointer) ∧
    ∀ pointer message,
      ((walk r strict visit e.top v).runFrom s).1 = .error (.mismatch pointer message) →
      (∀ c ∈ calls, ∃ out, c.answer = .ok out) → strict = true ∧ r.Misfit v e pointer := by
  intro calls visited
  obtain ⟨hfirst, hat, hfault⟩ := walkCalls_tour r strict visit hv e s
  have hpath : ∀ x ∈ visited, x.2.path = x.1 := fun _ => Call.path_of_mem_zip hfirst
  have hdistinct : (visited.map Prod.fst).Nodup := by
    rw [Call.map_fst_zip hfirst]
    exact (v.nodup_nodePaths [] hv).sublist hfirst.sublist
  refine ⟨Call.map_snd_zip hfirst, ?_, Call.pairwise_pointer hpath hdistinct, ?_⟩
  · intro path c hmem
    obtain ⟨w, hw, hleaf⟩ := hat c (List.of_mem_zip hmem).2
    obtain rfl : c.path = path := hpath _ hmem
    exact ⟨⟨w, hw.node, hleaf⟩, hw.records, congrArg List.length hw.records,
      Call.segmentsOf_pointer⟩
  · intro pointer message hend hanswers
    rcases hfault _ hend with hrefused | ⟨c, hc, hanswer⟩
    · exact hrefused pointer message rfl
    · obtain ⟨out, hout⟩ := hanswers c hc
      cases hanswer.symm.trans hout

/-- A book on a shelf. -/
def oldBook : Value := .record [("tags", .list [.text "old", .null])]

/-- A shelf with two books under keys that have to be escaped or are empty. -/
def twoBooks : Value :=
  .record [
    ("books", .record [("a/~1", oldBook), ("", .record [("tags", .text "new")])]),
    ("room", .text "east")]

/-- A shelf is expected. -/
def shelfExpectation : Expectation := { instanceOf := (shelves.class? "Shelf").map .ofClass }

/-- The strict walk visits the first book and its tags, which the books under their keys do not
enclose as a record, and refuses the tags of the second one. -/
theorem walk_places_twoBooks :
    twoBooks.Keyed ∧
    (∃ c ∈ walkCalls shelves true numbering shelfExpectation.top twoBooks 0,
      c.place.pointer = "/books/a~1~01/tags/1" ∧ c.place.records = [twoBooks, oldBook] ∧
      c.place.depth = 2 ∧
      Place.segmentsOf "/books/a~1~01/tags/1" = ["books", "a/~1", "tags", "1"]) ∧
    ((walkCalls shelves true numbering shelfExpectation.top twoBooks 0).map fun c =>
      c.place.pointer) = ["/books/a~1~01/tags/0", "/books/a~1~01/tags/1", "/books/a~1~01"] ∧
    ((walk shelves true numbering shelfExpectation.top twoBooks).runFrom 0).1 =
      .error (.mismatch "/books//tags" "expected array, found \"new\"") ∧
    shelves.Misfit twoBooks shelfExpectation "/books//tags" := by
  have hkeyed : twoBooks.Keyed := by
    simp [twoBooks, oldBook, Value.Keyed, Value.KeyedFields, Value.KeyedList]
  have hend : ((walk shelves true numbering shelfExpectation.top twoBooks).runFrom 0).1 =
      .error (.mismatch "/books//tags" "expected array, found \"new\"") := rfl
  have hanswers : ∀ c ∈ walkCalls shelves true numbering shelfExpectation.top twoBooks 0,
      ∃ out, c.answer = .ok out := by
    intro c hc
    rw [(run_recorded_walk shelves true numbering _ _ 0).2.eq_call_of_mem hc]
    cases c.node <;> exact ⟨_, rfl⟩
  obtain ⟨_, hplaces, _, hmisfit⟩ :=
    walk_places shelves true numbering hkeyed shelfExpectation 0
  obtain ⟨c₁, c₂, c₃, hcalls⟩ := List.length_eq_three.1
    (show (walkCalls shelves true numbering shelfExpectation.top twoBooks 0).length = 3 from rfl)
  have hpaths : twoBooks.nodePaths [] = [["books", "a/~1", "tags", "0"],
      ["books", "a/~1", "tags", "1"], ["books", "a/~1"], ["books", "", "tags"], ["books", ""],
      ["books"], ["room"], []] := rfl
  have hpointers : (walkCalls shelves true numbering shelfExpectation.top twoBooks 0).map
      (fun c => c.place.pointer) =
      ["/books/a~1~01/tags/0", "/books/a~1~01/tags/1", "/books/a~1~01"] := rfl
  rw [hpaths, hcalls] at hplaces
  obtain ⟨_, hrecords, hdepth, hback⟩ := hplaces _ c₂ (.tail _ (.head _))
  have hpointer : c₂.place.pointer = "/books/a~1~01/tags/1" := by
    rw [hcalls] at hpointers
    exact (List.cons.inj (List.cons.inj hpointers).2).1
  refine ⟨hkeyed, ⟨c₂, ?_, hpointer, hrecords, hdepth, ?_⟩, hpointers, hend,
    (hmisfit _ _ hend hanswers).2⟩
  · rw [hcalls]
    exact .tail _ (.head _)
  · rw [← hpointer]
    exact hback nofun

end SlotFrame
