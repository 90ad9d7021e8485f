import SlotFrame.Proofs.Registry.Materialized
import SlotFrame.Proofs.Registry.Writable
import SlotFrame.Proofs.Schema.RoundTrip

/-! # What is printed of a registry

A registry is printed by writing its flattened and materialized document. What is written is read
again but for limits of null and the names of nameless elements. On the way no element of any kind
is lost or comes to stand under another name, and no class comes to have another parent or mixin.
The classes above a class depend on nothing else, so the document that is read again has them as the
flattened document had; and that none of them is missing was found out when the slots were written.

Main definitions: `Schema.names`, `Schema.lineages`.

Main statements: `Registry.classAncestors_congr` (what the classes above a class depend on) and
`Registry.printed_standsAlone`. -/

namespace SlotFrame

variable {β : Type}

/-! ### Names and lineages of a document -/

namespace Schema

/-- The names under which the elements of a kind stand in a document. -/
def names (s : Schema) : ElementKind → List String
  | .classDef => s.classes.keys
  | .slotDef => s.slots.keys
  | .typeDef => s.types.keys
  | .enumDef => s.enums.keys
  | .subsetDef => s.subsets.keys
  | .schemaDoc => []

/-- The parent and the mixins of every class of a document. -/
def lineages (s : Schema) : Table (Option String × List String) :=
  s.classes.map fun c => (c.isA, c.mixins)

variable (s : Schema)

theorem keys_lineages : s.lineages.keys = s.classes.keys := Table.keys_mapWithKey _ _

theorem names_withAttributes (className : String) (slots : List SlotDef) :
    (s.withAttributes className slots).names = s.names := by
  funext kind
  cases kind with
  | classDef => exact s.classes.keys_modify className _
  | _ => rfl

/-- Changes of classes that keep parents and mixins. -/
theorem lineages_of_mapWithKey {s t : Schema} (f : String → ClassDef → ClassDef)
    (ht : t.classes = s.classes.mapWithKey f)
    (hf : ∀ key c, ((f key c).isA, (f key c).mixins) = (c.isA, c.mixins)) :
    t.lineages = s.lineages := by
  unfold lineages
  rw [ht]
  exact Table.map_mapWithKey hf s.classes

theorem lineages_withAttributes (className : String) (slots : List SlotDef) :
    (s.withAttributes className slots).lineages = s.lineages := by
  refine lineages_of_mapWithKey
    (fun key c => if key = className then c.withAttributes slots else c) rfl fun key c => ?_
  split <;> rfl

theorem names_trimmed : s.trimmed.names = s.names := by
  funext kind
  cases kind with
  | classDef => exact Table.keys_mapWithKey _ _
  | slotDef => exact Table.keys_mapWithKey _ _
  | typeDef => exact Table.keys_mapWithKey _ _
  | _ => rfl

theorem lineages_trimmed : s.trimmed.lineages = s.lineages :=
  lineages_of_mapWithKey (fun _ c => c.trimmed) rfl fun _ _ => rfl

theorem names_normalize : s.normalize.names = s.names := by
  funext kind
  cases kind with
  | classDef => exact (Table.keys_mapWithKey _ _).trans (Table.keys_mapWithKey _ _)
  | slotDef => exact Table.keys_mapWithKey _ _
  | typeDef => exact Table.keys_mapWithKey _ _
  | enumDef => exact (Table.keys_mapWithKey _ _).trans (Table.keys_mapWithKey _ _)
  | subsetDef => exact Table.keys_mapWithKey _ _
  | schemaDoc => rfl

theorem lineages_normalize : s.normalize.lineages = s.lineages := by
  refine (lineages_of_mapWithKey (s := { s with classes := nameFromKeys s.classes })
    (fun _ c => c.normalize) rfl fun _ _ => rfl).trans ?_
  refine lineages_of_mapWithKey
    (fun key c => if (Element.name c).isEmpty then Element.rename key c else c) rfl fun key c => ?_
  split <;> rfl

end Schema

namespace Registry

/-! ### What ancestors depend on -/

section congr

variable {r s : Registry}
  (h : (r.documents true).map Schema.lineages = (s.documents true).map Schema.lineages)

include h

theorem classParents_congr (o : Traversal) (n : String) :
    r.classParents o n = s.classParents o n := by
  have hlineage : ∀ t : Registry, (t.class? n).map (fun c => (c.isA, c.mixins)) =
      ((t.documents true).map Schema.lineages).reverse.findSome? fun t => t.get? n := by
    intro t
    unfold class? find?
    rw [List.map_findSome?, ← List.map_reverse, List.findSome?_map]
    congr 1
    funext d
    exact (Table.get?_map _ d.classes n).symm
  have heq : (r.class? n).map (fun c => (c.isA, c.mixins)) =
      (s.class? n).map fun c => (c.isA, c.mixins) := by
    rw [hlineage, hlineage, h]
  unfold classParents
  cases hr : r.class? n with
  | none =>
    rw [hr, Option.map_none, eq_comm, Option.map_eq_none_iff] at heq
    rw [heq]
  | some c =>
    rw [hr, Option.map_some, eq_comm, Option.map_eq_some_iff] at heq
    obtain ⟨d, hd, hpair⟩ := heq
    obtain ⟨hisA, hmixins⟩ := Prod.mk.inj hpair
    have habove : o.above c = o.above d := by
      show (if o.isA then c.isA.toList else []) ++ (if o.mixins then c.mixins else []) = _
      rw [← hisA, ← hmixins]
      rfl
    rw [hd]
    exact congrArg Except.ok habove

theorem countIn_classes_congr : r.countIn Schema.classes = s.countIn Schema.classes := by
  have hcount : ∀ t : Registry, t.countIn Schema.classes =
      (((t.documents true).map Schema.lineages).flatMap Table.keys).length := by
    intro t
    unfold countIn
    rw [List.flatMap_map]
    simp only [Schema.keys_lineages]
  rw [hcount, hcount, h]

/-- The classes above a class depend on the parents and mixins of classes alone, document by
document. -/
theorem classAncestors_congr (o : Traversal) (n : String) :
    r.classAncestors o n = s.classAncestors o n := by
  have habove : r.classParents o = s.classParents o := funext (classParents_congr h o)
  unfold classAncestors classesUp
  rw [habove, countIn_classes_congr h]

end congr

/-! ### One document -/

/-- What writing attributes leaves alone in every document it leaves alone in the primary one. -/
theorem primary_writeAll (field : Schema → β)
    (h : ∀ (d : Schema) className slots, field (d.withAttributes className slots) = field d)
    (slots : List (String × List SlotDef)) (r : Registry) :
    field (r.writeAll slots).primary = field r.primary :=
  (List.cons.inj (map_writeAll h slots r)).1

theorem names_flattened (r : Registry) (kind : ElementKind) :
    r.flattened.names kind = ((r.documents true).flatMap fun d => d.names kind).eraseDups := by
  have hfolded := r.flattened_folded
  cases kind with
  | classDef => exact hfolded.classes.keys
  | slotDef => exact hfolded.slots.keys
  | typeDef => exact hfolded.types.keys
  | enumDef => exact hfolded.enums.keys
  | subsetDef => exact hfolded.subsets.keys
  | schemaDoc =>
    have hnone : ((r.documents true).flatMap fun d => d.names .schemaDoc) = [] :=
      List.flatMap_eq_nil_iff.2 fun _ _ => rfl
    rw [hnone]
    rfl

/-- If all slots are induced, the classes above every class are known. -/
theorem exists_classAncestors_of_materialize {r m : Registry} (h : r.materialize = .ok m)
    {n : String} {c : ClassDef} (hc : r.class? n = some c) :
    ∃ above, r.classAncestors {} n = .ok above := by
  obtain ⟨slots, hslots, rfl⟩ := Result.map_eq_ok_iff.1 h
  obtain ⟨ds, hds, _⟩ := (mem_inducedSlots hslots).1 n c hc
  obtain ⟨⟨names, hnames⟩, _⟩ := sees_of_classInducedSlots hds
  obtain ⟨above, habove, _⟩ := classSlots_eq_ok_iff.1 hnames
  exact ⟨above, habove⟩

theorem Writable.materialize {r m : Registry} (hr : r.Writable) (h : r.materialize = .ok m) :
    m.Writable := by
  obtain ⟨slots, hslots, rfl⟩ := Result.map_eq_ok_iff.1 h
  exact hr.writeAll fun e he => hr.classInducedSlots ((mem_inducedSlots hslots).2 e he)

/-- **A registry that is flattened, materialized and written is read as a document that stands
alone**: it imports nothing, has the names of all elements of the documents, in the order of first
declaration, and a registry of it alone knows above every class what the flattened one knew. -/
theorem printed_standsAlone {r m : Registry} (hr : r.Writable)
    (h : r.flatten.materialize = .ok m) : ∃ s,
      (Schema.decode (Tree.ofValue m.primary.encode)).map Schema.normalize = .ok s ∧
      s.imports = [] ∧
      (∀ kind, s.names kind = ((r.documents true).flatMap fun d => d.names kind).eraseDups) ∧
      ∀ n ∈ s.names .classDef, ∃ above,
        (ofSchema s).classAncestors {} n = .ok above ∧
        r.flatten.classAncestors {} n = .ok above := by
  have hm := hr.flatten.materialize h
  obtain ⟨slots, hslots, rfl⟩ := Result.map_eq_ok_iff.1 h
  have hread := Schema.decode_encode (hm (r.flatten.writeAll slots).primary List.mem_cons_self)
  generalize hs : (r.flatten.writeAll slots).primary.trimmed.normalize = s
  have himports : s.imports = [] := by
    rw [← hs]
    exact primary_writeAll Schema.imports (fun _ _ _ => rfl) slots r.flatten
  have hnames : s.names = r.flattened.names := by
    rw [← hs, Schema.names_normalize, Schema.names_trimmed,
      primary_writeAll Schema.names Schema.names_withAttributes slots r.flatten]
    rfl
  have hlineages : s.lineages = r.flattened.lineages := by
    rw [← hs, Schema.lineages_normalize, Schema.lineages_trimmed,
      primary_writeAll Schema.lineages Schema.lineages_withAttributes slots r.flatten]
    rfl
  refine ⟨s, ?_, himports, ?_, ?_⟩
  · rw [hread, ← hs]
    rfl
  · intro kind
    rw [hnames, names_flattened]
  · intro n hn
    rw [hnames] at hn
    obtain ⟨c, hc⟩ := Option.isSome_iff_exists.1 ((Table.mem_keys_iff _ _).1 hn)
    have hclass : r.flatten.class? n = some c := by
      unfold class? find?
      show [r.flattened].findSome? _ = _
      rw [List.findSome?_singleton]
      exact hc
    obtain ⟨above, habove⟩ := exists_classAncestors_of_materialize h hclass
    refine ⟨above, ?_, habove⟩
    rw [← habove]
    apply classAncestors_congr
    show [s.normalize.lineages] = [r.flattened.lineages]
    rw [Schema.lineages_normalize, hlineages]

end Registry

end SlotFrame
