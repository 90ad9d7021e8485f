import SlotFrame.Proofs.Registry.Precedence
import SlotFrame.Proofs.View.Remembering

/-! # Induced definitions as a view answers them

Main statement: `View.Reachable.inducedSlot_precedence` (the nearest definition of a slot decides
about every field of the answer). -/

namespace SlotFrame.View

/-- **Precedence of definitions.** A slot that a view answers takes every field from the nearest of
its sources that sets it: its own definition, what the classes above say, the slots above. -/
theorem Reachable.inducedSlot_precedence {v : View} (hv : v.Reachable) {name : String}
    {className : Option String} {d : SlotDef}
    (h : (v.ask (inducedSlot name className)).1 = .ok d) :
    ∃ sources : v.registry.SlotSources name className, d.Nearest sources.list := by
  have hr : v.registry.inducedSlot name className = .ok d := by
    rw [← h]
    exact ((answers_inducedSlot name className).answer hv.coherent).symm
  exact v.registry.inducedSlot_nearest hr

/-- A person is a thing; the slot for names is a label, typed by things and required of persons. -/
def people : Schema where
  name := "people"
  slots := Table.ofList
    [("name", { name := "name", isA := some "label" }),
     ("label", { name := "label", range := some "text", pattern := some "^[A-Z]" })]
  classes := Table.ofList
    [("Thing", { name := "Thing",
                 attributes := Table.ofList [("name", { range := some "word" })] }),
     ("Person", { name := "Person", isA := some "Thing",
                  slotUsage := Table.ofList [("name", { required := some true })] })]

theorem inducedSlot_precedence_people :
    ∃ d, ((ofSchema people {}).ask (inducedSlot "name" (some "Person"))).1 = .ok d ∧
      d.required = some true ∧ d.range = some "word" ∧ d.pattern = some "^[A-Z]" ∧
      ∃ sources : (ofSchema people {}).registry.SlotSources "name" (some "Person"),
        d.Nearest sources.list :=
  ⟨_, rfl, rfl, rfl, rfl, (Reachable.ofSchema people {}).inducedSlot_precedence rfl⟩

end SlotFrame.View
