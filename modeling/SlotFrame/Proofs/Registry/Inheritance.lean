import SlotFrame.Proofs.Registry.Settling
import SlotFrame.Proofs.Schema.Coverage
import SlotFrame.Proofs.View.Remembering

/-! # Inheritance only adds

What holds of a class above holds of every class that inherits from it: the classes above it are
above them too, and they have all its slots. A slot that is declared as one starts from the same
definition wherever it is seen from, and leads to the same slots above. So a class fills it from all
that a class above fills it from, though in another order, and sets all that is set there, though
perhaps to other values.

Main definition: `Registry.SlotSources.forAncestor`.

Main statements: `Registry.exists_setsAllOf`, `View.Reachable.inherits`. -/

namespace SlotFrame

namespace Registry

variable {r : Registry} {a c : String} {cs : List String}

theorem classSlots_subset {names all : List String} (hcs : r.classAncestors {} c = .ok cs)
    (ha : a ∈ cs) (hnames : r.classSlots a = .ok names) (hall : r.classSlots c = .ok all) :
    names ⊆ all := by
  intro n hn
  have hhas : r.HasSlot a n := ⟨names, hnames, hn⟩
  obtain ⟨all', hall', hmem⟩ := hhas.of_ancestor hcs ha
  have hsame : all' = all := Except.ok.inj (hall'.symm.trans hall)
  exact hsame ▸ hmem

namespace SlotSources

variable {name : String} {o : SlotDef}

/-- What a class above fills a slot from that is declared as one: it starts from the same definition
and leads to the same slots above. -/
def forAncestor (ho : r.ownSlot? name = some o) (s : r.SlotSources name (some c)) {as : List String}
    (has : r.scope (some a) = .ok as) : r.SlotSources name (some a) where
  classes := as
  scope := has
  kinds := as.filterMap r.class?
  classes_known := map_eq_map_some (r.class?_of_mem_scope has)
  own := s.own
  own_found := by
    rw [ho, s.own_of_slot ho]
    rfl
  above := s.above
  ancestors := s.ancestors
  parents := s.parents
  above_known := s.above_known

theorem exists_inducedSlot (ho : r.ownSlot? name = some o) (s : r.SlotSources name (some c))
    (ha : a ∈ s.classes) : ∃ e, r.inducedSlot name (some a) = .ok e := by
  obtain ⟨as, has, _⟩ := Hierarchy.ancestors_of_mem (r.sized_classesUp {}) s.scope ha
  have hscope : r.scope (some a) = .ok as := has
  exact ⟨_, (s.forAncestor ho hscope).inducedSlot_eq⟩

end SlotSources

/-- What a class makes of a slot that is declared as one sets all that a class above makes of it. -/
theorem exists_setsAllOf {name : String} {d : SlotDef} (hname : (r.ownSlot? name).isSome)
    (hcs : r.classAncestors {} c = .ok cs) (ha : a ∈ cs)
    (hd : r.inducedSlot name (some c) = .ok d) :
    ∃ e, r.inducedSlot name (some a) = .ok e ∧ d.SetsAllOf e := by
  obtain ⟨o, ho⟩ := Option.isSome_iff_exists.1 hname
  obtain ⟨s, _⟩ := r.exists_slotSources hd
  have hclasses : s.classes = cs := Except.ok.inj (s.scope.symm.trans hcs)
  rw [← hclasses] at ha
  obtain ⟨e, he⟩ := s.exists_inducedSlot ho ha
  have hcovers : d.Covers e := SlotSources.covers_of_slot ho hd ha he
  exact ⟨e, he, SlotDef.covers_iff_setsAllOf.1 hcovers⟩

end Registry

namespace View

/-- **Inheritance only adds.** All that is above a class's ancestor can be told and is above the
class too; the class has all slots of the ancestor; and every slot that is declared as one and can
be induced for the class can be induced for the ancestor, where nothing is set that is not set for
the class. -/
theorem Reachable.inherits {v : View} (hv : v.Reachable) {a c : String} {cs : List String}
    (hc : v.registry.classAncestors {} c = .ok cs) (ha : a ∈ cs) :
    (∃ as, v.registry.classAncestors {} a = .ok as ∧ as ⊆ cs) ∧
    (∃ names all, v.registry.classSlots a = .ok names ∧ v.registry.classSlots c = .ok all ∧
      names ⊆ all) ∧
    ∀ name d, (v.registry.ownSlot? name).isSome →
      (v.ask (inducedSlot name (some c))).1 = .ok d →
      ∃ e, (v.ask (inducedSlot name (some a))).1 = .ok e ∧ d.SetsAllOf e := by
  obtain ⟨as, has, hsub⟩ := Hierarchy.ancestors_of_mem (v.registry.sized_classesUp {}) hc ha
  refine ⟨⟨as, has, fun p hp => hsub p hp⟩, ?_, ?_⟩
  · have hnames := Registry.classSlots_eq_ok_iff.2 ⟨as, has, rfl⟩
    have hall := Registry.classSlots_eq_ok_iff.2 ⟨cs, hc, rfl⟩
    exact ⟨_, _, hnames, hall, Registry.classSlots_subset hc ha hnames hall⟩
  · intro name d hname hd
    have hanswer : ∀ x, (v.ask (inducedSlot name (some x))).1 =
        v.registry.inducedSlot name (some x) := fun x =>
      (answers_inducedSlot name (some x)).answer hv.coherent
    rw [hanswer c] at hd
    rw [hanswer a]
    exact Registry.exists_setsAllOf hname hc ha hd

/-- A class that says one thing about the name. -/
def saying (about : SlotDef) : ClassDef :=
  { slots := ["name"], slotUsage := Table.ofList [("name", about)] }

/-- A pupil is a person and wears a badge; both say something about the name. -/
def pupils : Schema where
  name := "pupils"
  slots := Table.ofList [("name", { range := some "text" })]
  classes := Table.ofList
    [("Person", saying { required := some true, metadata := { comments := ["in full"] } }),
     ("Badged", saying { pattern := some "^[A-Z]", metadata := { comments := ["in capitals"] } }),
     ("Pupil", { isA := some "Person", mixins := ["Badged"] })]

theorem inherits_pupils :
    (ofSchema pupils {}).registry.classAncestors {} "Pupil" = .ok ["Pupil", "Person", "Badged"] ∧
    (∃ as, (ofSchema pupils {}).registry.classAncestors {} "Badged" = .ok as ∧
      as ⊆ ["Pupil", "Person", "Badged"]) ∧
    (∃ names all, (ofSchema pupils {}).registry.classSlots "Badged" = .ok names ∧
      (ofSchema pupils {}).registry.classSlots "Pupil" = .ok all ∧ names ⊆ all) ∧
    ((ofSchema pupils {}).registry.ownSlot? "name").isSome = true ∧
    ∃ d, ((ofSchema pupils {}).ask (inducedSlot "name" (some "Pupil"))).1 = .ok d ∧
      d.required = some true ∧ d.metadata.comments = ["in full"] ∧
      ∃ e, ((ofSchema pupils {}).ask (inducedSlot "name" (some "Badged"))).1 = .ok e ∧
        d.SetsAllOf e := by
  have hc : (ofSchema pupils {}).registry.classAncestors {} "Pupil" =
      .ok ["Pupil", "Person", "Badged"] := rfl
  obtain ⟨habove, hslots, hinduced⟩ := (Reachable.ofSchema pupils {}).inherits hc
    (a := "Badged") (by simp)
  exact ⟨hc, habove, hslots, rfl, _, rfl, rfl, rfl, hinduced "name" _ rfl rfl⟩

end View

end SlotFrame
