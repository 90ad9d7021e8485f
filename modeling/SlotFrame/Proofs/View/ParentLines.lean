import SlotFrame.Proofs.Registry.ParentLines
import SlotFrame.Proofs.View.Remembering

/-! # Lines of parents as a view answers them

Main statement: `View.Reachable.parents_in_line`. -/

namespace SlotFrame.View

/-- **Where there is one parent at most, ancestors are a line.** The types above a type can be told
exactly if it has a line, and are its names in their order: the type itself, its parent, the parent
of that, up to the first type without one; if the traversal is not reflexive the type itself is left
out. The same is so of the classes above a class and of the slots above a slot if mixins are left
out. The induced type can be told exactly if the type has a line, and takes every field from the
first type of the line that sets it, and extra keys nearest first. -/
theorem Reachable.parents_in_line {v : View} (hv : v.Reachable) :
    (∀ (o : Traversal) (name : String) (names : List String), o.isA = true →
      (v.registry.typeAncestors o name = .ok names ↔
        ∃ line, ParentLine v.registry.type? name line ∧
          names = if o.reflexive then keysOf line else (keysOf line).tail)) ∧
    (∀ (o : Traversal) (name : String) (names : List String), o.isA = true → o.mixins = false →
      (v.registry.classAncestors o name = .ok names ↔
        ∃ line, ParentLine v.registry.class? name line ∧
          names = if o.reflexive then keysOf line else (keysOf line).tail)) ∧
    (∀ (o : Traversal) (name : String) (names : List String), o.isA = true → o.mixins = false →
      (v.registry.slotAncestors o name = .ok names ↔
        ∃ line, ParentLine v.registry.slot? name line ∧
          names = if o.reflexive then keysOf line else (keysOf line).tail)) ∧
    ∀ (name : String) (t : TypeDef), (v.ask (inducedType name)).1 = .ok t ↔
      ∃ line, ParentLine v.registry.type? name line ∧ t.Nearest (line.map Prod.snd) := by
  refine ⟨fun _ _ _ => Registry.typeAncestors_eq_ok_iff,
    fun _ _ _ => Registry.classAncestors_eq_ok_iff,
    fun _ _ _ => Registry.slotAncestors_eq_ok_iff, ?_⟩
  intro name t
  rw [(answers_inducedType name).answer hv.coherent]
  exact Registry.inducedType_eq_ok_iff

/-- Ages are counts, and counts are integers; a captain is a sailor, and is ranked. -/
def shipping : Schema where
  name := "shipping"
  types := Table.ofList
    [("integer", { name := "integer", base := some "int", uri := some "xsd:integer" }),
     ("count", { name := "count", typeOf := some "integer", pattern := some "[0-9]+",
                 metadata := { notes := ["no sign"] } }),
     ("age", { name := "age", typeOf := some "count", uri := some "ex:age" })]
  slots := Table.ofList
    [("date", {}), ("signedOn", { isA := some "date", mixins := ["audited"] }), ("audited", {})]
  classes := Table.ofList
    [("Person", {}), ("Ranked", {}), ("Sailor", { isA := some "Person" }),
     ("Captain", { isA := some "Sailor", mixins := ["Ranked"] })]

theorem parents_in_line_shipping :
    (ofSchema shipping {}).registry.typeAncestors {} "age" = .ok ["age", "count", "integer"] ∧
      (ofSchema shipping {}).registry.classAncestors { mixins := false } "Captain" =
        .ok ["Captain", "Sailor", "Person"] ∧
      (ofSchema shipping {}).registry.slotAncestors { mixins := false, reflexive := false }
        "signedOn" = .ok ["date"] ∧
      ∃ t, ((ofSchema shipping {}).ask (inducedType "age")).1 = .ok t ∧ t.name = "age" ∧
        t.base = some "int" ∧ t.uri = some "ex:age" ∧ t.pattern = some "[0-9]+" ∧
        t.metadata.notes = ["no sign"] := by
  obtain ⟨htypes, hclasses, hslots, hinduced⟩ :=
    (Reachable.ofSchema shipping {}).parents_in_line
  have hage : ParentLine (ofSchema shipping {}).registry.type? "age" _ :=
    .step rfl rfl (.step rfl rfl (.top rfl rfl))
  refine ⟨(htypes {} "age" _ rfl).2 ⟨_, hage, rfl⟩,
    (hclasses { mixins := false } "Captain" _ rfl rfl).2
      ⟨_, .step rfl rfl (.step rfl rfl (.top rfl rfl)), rfl⟩,
    (hslots { mixins := false, reflexive := false } "signedOn" _ rfl rfl).2
      ⟨_, .step rfl rfl (.top rfl rfl), rfl⟩,
    _, (hinduced "age" _).2 ⟨_, hage, TypeDef.nearest_fillFrom _⟩, rfl, rfl, rfl, rfl, rfl⟩

end SlotFrame.View
