import Mathlib.Data.List.Nodup
import SlotFrame.Proofs.Data.ValueTrees
import SlotFrame.Proofs.Walk.Calls

/-! # Walks visit after what they rebuild

A walk that ends well has called its visitor once for each node that is no list, after the nodes
within it and in the order of the value. The visitor was given each node with what it had made of
the nodes within, under the same keys, and the result of the walk is what became of the top. All
this is a relation between a value, calls and a result; it follows the value and knows nothing of
registries, visitors or states.

What a program has noted when it ends well is followed through its steps: the notes of a whole walk
are put together from the notes of its parts as the relation puts together calls.

Main definitions: `Rebuilt`, `Value.nodePaths`, `Notes`.

Main statements: `Notes.walk` (the calls of a walk rebuild the value), `Value.nodup_nodePaths` (no
path occurs twice) and `walk_postOrder`. -/

namespace SlotFrame

variable {σ α β : Type}

namespace Value

/-- Whether a value holds no others. -/
def isScalar : Value → Bool
  | .list _ | .record _ => false
  | _ => true

/-! ### The nodes of a value -/

mutual

/-- The paths of the nodes of a value that are no lists, each after those of the nodes within it. -/
def nodePaths (path : List String) : Value → List (List String)
  | .list items => itemPaths path 0 items
  | .record fields => fieldPaths path fields ++ [path]
  | .null | .bool _ | .number _ | .text _ => [path]

def itemPaths (path : List String) (index : Nat) : List Value → List (List String)
  | [] => []
  | v :: rest => nodePaths (path ++ [toString index]) v ++ itemPaths path (index + 1) rest

def fieldPaths (path : List String) : List (String × Value) → List (List String)
  | [] => []
  | (key, v) :: rest => nodePaths (path ++ [key]) v ++ fieldPaths path rest

end

theorem nodePaths_of_isScalar {v : Value} (h : v.isScalar = true) (path : List String) :
    v.nodePaths path = [path] := by
  cases v with
  | list items => cases h
  | record fields => cases h
  | null | bool b | number n | text t => rw [nodePaths]

mutual

theorem prefix_of_mem_nodePaths {path q : List String} : (v : Value) → q ∈ v.nodePaths path →
    path <+: q
  | .list items, h => by
    rw [nodePaths] at h
    obtain ⟨j, _, hq⟩ := prefix_of_mem_itemPaths 0 items h
    exact (List.prefix_append path [toString j]).trans hq
  | .record fields, h => by
    rw [nodePaths, List.mem_append, List.mem_singleton] at h
    rcases h with h | rfl
    · obtain ⟨key, _, hq⟩ := prefix_of_mem_fieldPaths fields h
      exact (List.prefix_append path [key]).trans hq
    · exact List.prefix_rfl
  | .null, h | .bool _, h | .number _, h | .text _, h => by
    rw [nodePaths, List.mem_singleton] at h
    subst h
    exact List.prefix_rfl

theorem prefix_of_mem_itemPaths {path q : List String} (index : Nat) : (items : List Value) →
    q ∈ itemPaths path index items → ∃ j, index ≤ j ∧ path ++ [toString j] <+: q
  | [], h => by
    rw [itemPaths] at h
    cases h
  | v :: rest, h => by
    rw [itemPaths, List.mem_append] at h
    rcases h with h | h
    · exact ⟨index, Nat.le_refl index, prefix_of_mem_nodePaths v h⟩
    · obtain ⟨j, hj, hq⟩ := prefix_of_mem_itemPaths (index + 1) rest h
      exact ⟨j, by omega, hq⟩

theorem prefix_of_mem_fieldPaths {path q : List String} : (fields : List (String × Value)) →
    q ∈ fieldPaths path fields → ∃ key ∈ keysOf fields, path ++ [key] <+: q
  | [], h => by
    rw [fieldPaths] at h
    cases h
  | (key, v) :: rest, h => by
    rw [fieldPaths, List.mem_append] at h
    rcases h with h | h
    · exact ⟨key, List.mem_cons_self, prefix_of_mem_nodePaths v h⟩
    · obtain ⟨key', hkey, hq⟩ := prefix_of_mem_fieldPaths rest h
      exact ⟨key', List.mem_cons_of_mem _ hkey, hq⟩

end

/-- Paths through two segments at one place are the same only if the segments are. -/
theorem segment_unique {path q : List String} {a b : String} (ha : path ++ [a] <+: q)
    (hb : path ++ [b] <+: q) : a = b := by
  have hlen : (path ++ [a]).length = (path ++ [b]).length := by simp
  have heq := (List.prefix_of_prefix_length_le ha hb (Nat.le_of_eq hlen)).eq_of_length hlen
  exact List.singleton_inj.1 (List.append_cancel_left heq)

/-- An index is read back from its digits. -/
theorem toString_injective {i j : Nat} (h : toString i = toString j) : i = j := by
  rw [Nat.toString_eq_ofList_toDigits, Nat.toString_eq_ofList_toDigits, String.ofList_inj] at h
  rw [← Nat.ofDigitChars_ten_toDigits (n := i), h, Nat.ofDigitChars_ten_toDigits]

mutual

/-- Where no record has a name twice, no two nodes have one path. -/
theorem nodup_nodePaths (path : List String) : (v : Value) → v.Keyed → (v.nodePaths path).Nodup
  | .list items, h => by
    rw [Keyed] at h
    rw [nodePaths]
    exact nodup_itemPaths path 0 items h
  | .record fields, h => by
    rw [Keyed] at h
    rw [nodePaths]
    refine (nodup_fieldPaths path fields h.1 h.2).append (List.nodup_singleton path) ?_
    intro q hq hpath
    rw [List.mem_singleton.1 hpath] at hq
    obtain ⟨key, _, hlong⟩ := prefix_of_mem_fieldPaths fields hq
    have hlen := hlong.length_le
    rw [List.length_append, List.length_singleton] at hlen
    omega
  | .null, _ | .bool _, _ | .number _, _ | .text _, _ => by
    rw [nodePaths]
    exact List.nodup_singleton path

theorem nodup_itemPaths (path : List String) (index : Nat) : (items : List Value) →
    KeyedList items → (itemPaths path index items).Nodup
  | [], _ => by
    rw [itemPaths]
    exact List.nodup_nil
  | v :: rest, h => by
    rw [KeyedList] at h
    rw [itemPaths]
    refine (nodup_nodePaths _ v h.1).append (nodup_itemPaths path (index + 1) rest h.2) ?_
    -- a path into a later item goes through a larger index
    intro q hv hrest
    obtain ⟨j, hj, hq⟩ := prefix_of_mem_itemPaths (index + 1) rest hrest
    have heq := toString_injective (segment_unique (prefix_of_mem_nodePaths v hv) hq)
    omega

theorem nodup_fieldPaths (path : List String) : (fields : List (String × Value)) →
    (keysOf fields).Nodup → KeyedFields fields → (fieldPaths path fields).Nodup
  | [], _, _ => by
    rw [fieldPaths]
    exact List.nodup_nil
  | (key, v) :: rest, hkeys, h => by
    obtain ⟨hkey, hkeys⟩ := List.nodup_cons.1 hkeys
    rw [KeyedFields] at h
    rw [fieldPaths]
    refine (nodup_nodePaths _ v h.1).append (nodup_fieldPaths path rest hkeys h.2) ?_
    intro q hv hrest
    obtain ⟨key', hmem, hq⟩ := prefix_of_mem_fieldPaths rest hrest
    rw [segment_unique (prefix_of_mem_nodePaths v hv) hq] at hkey
    exact hkey hmem

end

end Value

/-! ### How calls rebuild a value -/

mutual

/-- The calls for a value at a path, and what becomes of the value: a node without others in it is
given as it is; a list becomes the list of what becomes of its items, and no call is for itself; a
record is given, after the calls for its fields, with what became of each under its key. -/
inductive Rebuilt {σ : Type} : List String → Value → List (Call σ) → Value → Prop where
  | scalar {path : List String} {c : Call σ} {out : Value} :
      c.node.isScalar = true → c.place.segments = path → c.answer = .ok out →
      Rebuilt path c.node [c] out
  | list {path : List String} {items outs : List Value} {calls : List (Call σ)} :
      RebuiltItems path 0 items calls outs → Rebuilt path (.list items) calls (.list outs)
  | record {path : List String} {fields outs : List (String × Value)} {calls : List (Call σ)}
      {c : Call σ} {out : Value} :
      RebuiltFields path fields calls outs → c.node = .record outs → c.place.segments = path →
      c.answer = .ok out → Rebuilt path (.record fields) (calls ++ [c]) out

/-- The calls for the items of a list from an index on, and what becomes of each. -/
inductive RebuiltItems {σ : Type} :
    List String → Nat → List Value → List (Call σ) → List Value → Prop where
  | nil {path : List String} {index : Nat} : RebuiltItems path index [] [] []
  | cons {path : List String} {index : Nat} {v out : Value} {rest outs : List Value}
      {calls calls' : List (Call σ)} :
      Rebuilt (path ++ [toString index]) v calls out →
      RebuiltItems path (index + 1) rest calls' outs →
      RebuiltItems path index (v :: rest) (calls ++ calls') (out :: outs)

/-- The calls for the fields of a record, and what becomes of each. -/
inductive RebuiltFields {σ : Type} :
    List String → List (String × Value) → List (Call σ) → List (String × Value) → Prop where
  | nil {path : List String} : RebuiltFields path [] [] []
  | cons {path : List String} {key : String} {v out : Value} {rest outs : List (String × Value)}
      {calls calls' : List (Call σ)} :
      Rebuilt (path ++ [key]) v calls out → RebuiltFields path rest calls' outs →
      RebuiltFields path ((key, v) :: rest) (calls ++ calls') ((key, out) :: outs)

end

mutual

/-- There is one call for each node that is no list, in post-order. -/
theorem Rebuilt.map_segments : {path : List String} → {v : Value} → {calls : List (Call σ)} →
    {out : Value} → Rebuilt path v calls out →
    calls.map (fun c => c.place.segments) = v.nodePaths path
  | _, _, _, _, .scalar hleaf hpath _ => by
    rw [Value.nodePaths_of_isScalar hleaf, List.map_singleton, hpath]
  | _, _, _, _, .list h => by
    rw [Value.nodePaths, h.map_segments]
  | _, _, _, _, .record h _ hpath _ => by
    rw [Value.nodePaths, List.map_append, h.map_segments, List.map_singleton, hpath]

theorem RebuiltItems.map_segments : {path : List String} → {index : Nat} → {items : List Value} →
    {calls : List (Call σ)} → {outs : List Value} → RebuiltItems path index items calls outs →
    calls.map (fun c => c.place.segments) = Value.itemPaths path index items
  | _, _, _, _, _, .nil => by rw [Value.itemPaths, List.map_nil]
  | _, _, _, _, _, .cons h hrest => by
    rw [Value.itemPaths, List.map_append, h.map_segments, hrest.map_segments]

theorem RebuiltFields.map_segments : {path : List String} → {fields : List (String × Value)} →
    {calls : List (Call σ)} → {outs : List (String × Value)} →
    RebuiltFields path fields calls outs →
    calls.map (fun c => c.place.segments) = Value.fieldPaths path fields
  | _, _, _, _, .nil => by rw [Value.fieldPaths, List.map_nil]
  | _, _, _, _, .cons h hrest => by
    rw [Value.fieldPaths, List.map_append, h.map_segments, hrest.map_segments]

end

mutual

theorem Rebuilt.node_ne_list : {path : List String} → {v : Value} → {calls : List (Call σ)} →
    {out : Value} → Rebuilt path v calls out → ∀ c ∈ calls, ∀ items, c.node ≠ .list items
  | _, _, _, _, .scalar hleaf _ _ => by
    intro c hc items hnode
    rw [List.mem_singleton.1 hc] at hnode
    rw [hnode] at hleaf
    cases hleaf
  | _, _, _, _, .list h => h.node_ne_list
  | _, _, _, _, .record h hnode _ _ => by
    intro c hc items hlist
    rcases List.mem_append.1 hc with hc | hc
    · exact h.node_ne_list c hc items hlist
    · rw [List.mem_singleton.1 hc, hnode] at hlist
      cases hlist

theorem RebuiltItems.node_ne_list : {path : List String} → {index : Nat} → {items : List Value} →
    {calls : List (Call σ)} → {outs : List Value} → RebuiltItems path index items calls outs →
    ∀ c ∈ calls, ∀ items, c.node ≠ .list items
  | _, _, _, _, _, .nil => fun _ hc => nomatch hc
  | _, _, _, _, _, .cons h hrest => fun c hc =>
    (List.mem_append.1 hc).elim (h.node_ne_list c) (hrest.node_ne_list c)

theorem RebuiltFields.node_ne_list : {path : List String} → {fields : List (String × Value)} →
    {calls : List (Call σ)} → {outs : List (String × Value)} →
    RebuiltFields path fields calls outs → ∀ c ∈ calls, ∀ items, c.node ≠ .list items
  | _, _, _, _, .nil => fun _ hc => nomatch hc
  | _, _, _, _, .cons h hrest => fun c hc =>
    (List.mem_append.1 hc).elim (h.node_ne_list c) (hrest.node_ne_list c)

end

mutual

/-- Where each call is answered by the node it was given, the value becomes itself. -/
theorem Rebuilt.eq_of_echoed : {path : List String} → {v : Value} → {calls : List (Call σ)} →
    {out : Value} → Rebuilt path v calls out → (∀ c ∈ calls, c.answer = .ok c.node) → out = v
  | _, _, _, _, .scalar _ _ hanswer, hecho => by
    rw [hecho _ (List.mem_singleton_self _)] at hanswer
    cases hanswer
    rfl
  | _, _, _, _, .list h, hecho => by
    rw [h.eq_of_echoed hecho]
  | _, _, _, _, .record h hnode _ hanswer, hecho => by
    rw [hecho _ (List.mem_append_right _ (List.mem_singleton_self _)), hnode] at hanswer
    cases hanswer
    rw [h.eq_of_echoed fun c hc => hecho c (List.mem_append_left _ hc)]

theorem RebuiltItems.eq_of_echoed : {path : List String} → {index : Nat} → {items : List Value} →
    {calls : List (Call σ)} → {outs : List Value} → RebuiltItems path index items calls outs →
    (∀ c ∈ calls, c.answer = .ok c.node) → outs = items
  | _, _, _, _, _, .nil, _ => rfl
  | _, _, _, _, _, .cons h hrest, hecho => by
    rw [h.eq_of_echoed fun c hc => hecho c (List.mem_append_left _ hc),
      hrest.eq_of_echoed fun c hc => hecho c (List.mem_append_right _ hc)]

theorem RebuiltFields.eq_of_echoed : {path : List String} → {fields : List (String × Value)} →
    {calls : List (Call σ)} → {outs : List (String × Value)} →
    RebuiltFields path fields calls outs → (∀ c ∈ calls, c.answer = .ok c.node) → outs = fields
  | _, _, _, _, .nil, _ => rfl
  | _, _, _, _, .cons h hrest, hecho => by
    rw [h.eq_of_echoed fun c hc => hecho c (List.mem_append_left _ hc),
      hrest.eq_of_echoed fun c hc => hecho c (List.mem_append_right _ hc)]

end

/-! ### What a program notes -/

/-- Whenever a program with notes ends well, the notes that it adds and its result are in a
relation. -/
def Notes (m : Walk (σ × List (Call σ)) α) (P : List (Call σ) → α → Prop) : Prop :=
  ∀ w a w', m.runFrom w = (.ok a, w') → ∃ calls, w'.2 = w.2 ++ calls ∧ P calls a

namespace Notes

variable {m : Walk (σ × List (Call σ)) α} {k : α → Walk (σ × List (Call σ)) β}
  {P : List (Call σ) → α → Prop} {Q : List (Call σ) → β → Prop}

theorem pure {a : α} (h : P [] a) : Notes (Pure.pure a) P := by
  intro w a' w' hrun
  cases hrun
  exact ⟨[], (List.append_nil _).symm, h⟩

theorem ofResult {r : Result α} (h : ∀ a, r = .ok a → P [] a) : Notes (Walk.ofResult r) P := by
  intro w a w' hrun
  rw [Walk.runFrom_ofResult] at hrun
  cases hrun
  exact ⟨[], (List.append_nil _).symm, h a rfl⟩

theorem refuse (p : Place) (problem : String) : Notes (Walk.refuse p problem) P := by
  intro w a w' hrun
  rw [Walk.runFrom_refuse] at hrun
  cases hrun

theorem bind (hm : Notes m P)
    (hk : ∀ a calls, P calls a → Notes (k a) fun calls' b => Q (calls ++ calls') b) :
    Notes (m >>= k) Q := by
  intro w b w' hrun
  obtain ⟨a, w₁, hrun, hrest⟩ := Walk.runFrom_bind_eq_ok_iff.1 hrun
  obtain ⟨calls, hlog, hP⟩ := hm w a w₁ hrun
  obtain ⟨calls', hlog', hQ⟩ := hk a calls hP w₁ b w' hrest
  exact ⟨calls ++ calls', by rw [hlog', hlog, List.append_assoc], hQ⟩

theorem call (visit : Visitor σ) (node : Value) (p : Place) :
    Notes (visit.recorded node p) fun calls out =>
      ∃ c, calls = [c] ∧ c.node = node ∧ c.place = p ∧ c.answer = .ok out := by
  rintro ⟨s, log⟩ out w' hrun
  rw [Visitor.runFrom_recorded] at hrun
  obtain ⟨hanswer, rfl⟩ := Prod.mk.inj hrun
  exact ⟨_, rfl, _, rfl, rfl, rfl, hanswer⟩

end Notes

theorem Registry.segments_of_slotPlace {r : Registry} {p place : Place} {key : String}
    (h : r.slotPlace p key = .ok place) : place.segments = p.segments ++ [key] := by
  obtain ⟨slot, _, h⟩ := Result.bind_eq_ok_iff.1 h
  obtain ⟨range, _, h⟩ := Result.bind_eq_ok_iff.1 h
  cases h
  rfl

/-! ### What a walk notes -/

namespace Notes

variable {r : Registry} {strict : Bool} {visit : Visitor σ}

theorem scalar (p : Place) {v : Value} (hleaf : v.isScalar = true) :
    Notes (Walk.scalar strict visit.recorded p v) (Rebuilt p.segments v) := by
  unfold Walk.scalar
  split
  · exact refuse p _
  · intro w out w' hrun
    obtain ⟨calls, hlog, c, rfl, rfl, rfl, hanswer⟩ := call visit v p w out w' hrun
    exact ⟨[c], hlog, .scalar hleaf rfl hanswer⟩

/-- A record is given to the visitor with what became of its fields. -/
theorem record {p : Place} {fields : List (String × Value)}
    {m : Walk (σ × List (Call σ)) (List (String × Value))}
    (hm : Notes m (RebuiltFields p.segments fields)) :
    Notes (m >>= fun outs => visit.recorded (.record outs) p)
      (Rebuilt p.segments (.record fields)) := by
  refine hm.bind fun outs calls h => ?_
  intro w out w' hrun
  obtain ⟨_, hlog, c, rfl, hnode, rfl, hanswer⟩ := call visit _ p w out w' hrun
  exact ⟨[c], hlog, .record h hnode rfl hanswer⟩

mutual

/-- The calls of a walk that ends well rebuild the value. -/
theorem walk (p : Place) : (v : Value) →
    Notes (SlotFrame.walk r strict visit.recorded p v) (Rebuilt p.segments v)
  | .list items => by
    rw [SlotFrame.walk]
    split
    · exact refuse p _
    · refine (walkItems p.single 0 items).bind fun outs calls h => pure ?_
      rw [List.append_nil]
      exact .list h
  | .record fields => by
    rw [SlotFrame.walk]
    cases p.inCollection with
    | true => exact record (walkMembers p.single fields)
    | false => exact record (walkFields (p.enter (.record fields)) fields)
  | .null => by
    rw [SlotFrame.walk]
    intro w out w' hrun
    obtain ⟨calls, hlog, c, rfl, hnode, rfl, hanswer⟩ := call visit .null p w out w' hrun
    rw [← hnode]
    exact ⟨[c], hlog, .scalar (by rw [hnode]; rfl) rfl hanswer⟩
  | .bool b => by
    rw [SlotFrame.walk]
    exact scalar p rfl
  | .number n => by
    rw [SlotFrame.walk]
    exact scalar p rfl
  | .text t => by
    rw [SlotFrame.walk]
    exact scalar p rfl

theorem walkItems (p : Place) (index : Nat) : (items : List Value) →
    Notes (SlotFrame.walkItems r strict visit.recorded p index items)
      (RebuiltItems p.segments index items)
  | [] => by
    rw [SlotFrame.walkItems]
    exact pure .nil
  | v :: rest => by
    rw [SlotFrame.walkItems]
    refine (walk (p.child (toString index)) v).bind fun out calls h => ?_
    refine (walkItems p (index + 1) rest).bind fun outs calls' hrest => pure ?_
    rw [List.append_nil]
    exact .cons h hrest

theorem walkMembers (p : Place) : (members : List (String × Value)) →
    Notes (SlotFrame.walkMembers r strict visit.recorded p members)
      (RebuiltFields p.segments members)
  | [] => by
    rw [SlotFrame.walkMembers]
    exact pure .nil
  | (key, v) :: rest => by
    rw [SlotFrame.walkMembers]
    refine (walk (p.child key) v).bind fun out calls h => ?_
    refine (walkMembers p rest).bind fun outs calls' hrest => pure ?_
    rw [List.append_nil]
    exact .cons h hrest

theorem walkFields (p : Place) : (fields : List (String × Value)) →
    Notes (SlotFrame.walkFields r strict visit.recorded p fields)
      (RebuiltFields p.segments fields)
  | [] => by
    rw [SlotFrame.walkFields]
    exact pure .nil
  | (key, v) :: rest => by
    rw [SlotFrame.walkFields]
    -- the lookup of the slot decides what the value is walked as, but not where it stands
    have hplace : Notes (Walk.ofResult (r.slotPlace p key) : Walk (σ × List (Call σ)) Place)
        fun calls place => calls = [] ∧ place.segments = p.segments ++ [key] :=
      ofResult fun place h => ⟨rfl, Registry.segments_of_slotPlace h⟩
    refine hplace.bind fun place calls₀ h₀ => ?_
    obtain ⟨rfl, hsegments⟩ := h₀
    refine (walk place v).bind fun out calls h => ?_
    rw [hsegments] at h
    refine (walkFields p rest).bind fun outs calls' hrest => pure ?_
    rw [List.nil_append, List.append_nil]
    exact .cons h hrest

end

end Notes

/-- **A walk is a rebuild in post-order.** When it ends well, its calls lead from the state where it
starts to the state that it leaves, and the result is what they rebuild of the value. There is one
call for each node that is no list, in post-order, and none for a list; no node has the path of
another unless a record has a name twice. A visitor that answers each node by itself changes
nothing. -/
theorem walk_postOrder {r : Registry} {strict : Bool} {visit : Visitor σ} {p : Place}
    {v out : Value} {s s' : σ} (h : (walk r strict visit p v).runFrom s = (.ok out, s')) :
    visit.Sequence s (walkCalls r strict visit p v s) s' ∧
    Rebuilt p.segments v (walkCalls r strict visit p v s) out ∧
    (walkCalls r strict visit p v s).map (fun c => c.place.segments) = v.nodePaths p.segments ∧
    (v.Keyed → (v.nodePaths p.segments).Nodup) ∧
    (∀ c ∈ walkCalls r strict visit p v s, ∀ items, c.node ≠ .list items) ∧
    ((∀ node place s, ((visit node place).runFrom s).1 = .ok node) → out = v) := by
  obtain ⟨hrun, hsequence⟩ := run_recorded_walk r strict visit p v s
  rw [h] at hrun hsequence
  obtain ⟨calls, hlog, hrebuilt⟩ := Notes.walk p v _ _ _ hrun
  rw [List.nil_append] at hlog
  rw [← hlog] at hrebuilt
  refine ⟨hsequence, hrebuilt, hrebuilt.map_segments, v.nodup_nodePaths p.segments,
    hrebuilt.node_ne_list, fun hecho => hrebuilt.eq_of_echoed fun c hc => ?_⟩
  rw [hsequence.eq_call_of_mem hc]
  exact hecho c.node c.place c.before

/-- Shelves hold books under their keys, and books have tags. -/
def shelves : Registry :=
  .ofSchema { name := "shelves", classes := Table.ofList [
    ("Shelf", { attributes := Table.ofList [
      ("books", { range := some "Book", multivalued := some true }), ("room", {})] }),
    ("Book", { attributes := Table.ofList [("tags", { multivalued := some true })] })] }

/-- Where a shelf stands. -/
def shelfPlace : Place := { instanceOf := (shelves.class? "Shelf").map .ofClass }

/-- A shelf with one book. -/
def shelf : Value :=
  .record [
    ("books", .record [("b1", .record [("tags", .list [.text "old", .null])])]),
    ("room", .text "east")]

/-- Makes of every node that holds no others the number of the call. -/
def numbering : Visitor Nat := fun node _ => do
  modify (· + 1)
  match node with
  | .record fields => return .record fields
  | _ => return .number (.int (← get))

/-- The shelf with the numbers of the calls. -/
def numberedShelf : Value :=
  .record [
    ("books", .record [("b1", .record [("tags", .list [.number (.int 1), .number (.int 2)])])]),
    ("room", .number (.int 5))]

theorem walk_postOrder_shelf :
    (walk shelves true numbering shelfPlace shelf).runFrom 0 = (.ok numberedShelf, 6) ∧
    numbering.Sequence 0 (walkCalls shelves true numbering shelfPlace shelf 0) 6 ∧
    Rebuilt [] shelf (walkCalls shelves true numbering shelfPlace shelf 0) numberedShelf ∧
    (walkCalls shelves true numbering shelfPlace shelf 0).map (fun c => c.place.segments) =
      [["books", "b1", "tags", "0"], ["books", "b1", "tags", "1"], ["books", "b1"], ["books"],
        ["room"], []] ∧
    (∀ c ∈ walkCalls shelves true numbering shelfPlace shelf 0, ∀ items, c.node ≠ .list items) := by
  have hrun : (walk shelves true numbering shelfPlace shelf).runFrom 0 =
      (.ok numberedShelf, 6) := rfl
  obtain ⟨hsequence, hrebuilt, hpaths, _, hnodes, _⟩ := walk_postOrder hrun
  exact ⟨hrun, hsequence, hrebuilt, hpaths, hnodes⟩

end SlotFrame
