import SlotFrame.Proofs.Registry.SlotOutcomes
import SlotFrame.Proofs.View.Remembering

/-! # When a view can induce a slot

Main statement: `View.Reachable.inducedSlot_outcome`. -/

namespace SlotFrame.View

/-- **When a slot can be induced, and with which fault it cannot.** It can exactly if the class that
it is seen from is founded, some document declares it as a slot or as an attribute, and its own
definition is founded, the slot itself standing for that definition. Otherwise the fault is that of
the classes above the class if this is not founded; else the slot itself, seen from there, if no
document declares it; else that of the slots above its own definition. -/
theorem Reachable.inducedSlot_outcome {v : View} (hv : v.Reachable) (name : String)
    (className : Option String) :
    ((∃ d, (v.ask (inducedSlot name className)).1 = .ok d) ↔
      v.registry.ScopeFounded className ∧ v.registry.Declares name ∧
        ∃ own, v.registry.OwnDefinition name className own ∧
          Founded .slotDef (v.registry.slotAs? name own) name) ∧
    (¬ v.registry.ScopeFounded className → ∃ c f,
      className = some c ∧ v.registry.classAncestors {} c = .error f ∧
        Explains .classDef (.declared .classDef {} v.registry.class?) c f ∧
        (v.ask (inducedSlot name className)).1 = .error f) ∧
    (v.registry.ScopeFounded className → ¬ v.registry.Declares name →
      (v.ask (inducedSlot name className)).1 = .error (.unresolved .slotDef name className)) ∧
    (v.registry.ScopeFounded className → v.registry.Declares name →
      ∃ own, v.registry.OwnDefinition name className own ∧
        (¬ Founded .slotDef (v.registry.slotAs? name own) name → ∃ f,
          v.registry.slotAncestorsOf { reflexive := false } name own = .error f ∧
            Explains .slotDef (.declared .slotDef {} (v.registry.slotAs? name own)) name f ∧
            (v.ask (inducedSlot name className)).1 = .error f)) := by
  rw [(answers_inducedSlot name className).answer hv.coherent]
  exact ⟨Registry.exists_inducedSlot_iff, Registry.inducedSlot_of_not_scopeFounded,
    Registry.inducedSlot_of_not_declares, Registry.inducedSlot_of_not_founded⟩

/-- The load of a ship is a weight. A ghost ship is a phantom, of which nothing is known; so is the
depth that a draught is. -/
def harbour : Schema where
  name := "harbour"
  slots := Table.ofList [("weight", {}), ("draught", { isA := some "depth" })]
  classes := Table.ofList
    [("Vessel", {}), ("GhostShip", { isA := some "Phantom" }),
     ("Ship", { isA := some "Vessel",
                attributes := Table.ofList [("load", { isA := some "weight" })] })]

theorem inducedSlot_outcome_harbour :
    (ofSchema harbour {}).registry.ScopeFounded (some "Ship") ∧
      (∃ d, ((ofSchema harbour {}).ask (inducedSlot "load" (some "Ship"))).1 = .ok d) ∧
      ¬ (ofSchema harbour {}).registry.ScopeFounded (some "GhostShip") ∧
      ((ofSchema harbour {}).ask (inducedSlot "load" (some "GhostShip"))).1 =
        .error (.unresolved .classDef "Phantom" none) ∧
      ¬ (ofSchema harbour {}).registry.Declares "sail" ∧
      ((ofSchema harbour {}).ask (inducedSlot "sail" (some "Ship"))).1 =
        .error (.unresolved .slotDef "sail" (some "Ship")) ∧
      (ofSchema harbour {}).registry.Declares "draught" ∧
      ((ofSchema harbour {}).ask (inducedSlot "draught" (some "Ship"))).1 =
        .error (.unresolved .slotDef "depth" none) := by
  have hv : (ofSchema harbour {}).Reachable := .ofSchema harbour {}
  have hload : ∃ d, ((ofSchema harbour {}).ask (inducedSlot "load" (some "Ship"))).1 = .ok d :=
    ⟨_, rfl⟩
  have hship := ((hv.inducedSlot_outcome "load" (some "Ship")).1.1 hload).1
  have hsail : ¬ (ofSchema harbour {}).registry.Declares "sail" := by decide +kernel
  have hdraught : (ofSchema harbour {}).registry.Declares "draught" := by decide +kernel
  -- a founded class would have no fault to show
  have hghost : ¬ (ofSchema harbour {}).registry.ScopeFounded (some "GhostShip") := by
    intro hfounded
    obtain ⟨classes, hclasses⟩ := Registry.exists_scope_iff.2 hfounded
    cases hclasses
  obtain ⟨c, f, hc, hf, -, hanswer⟩ :=
    (hv.inducedSlot_outcome "load" (some "GhostShip")).2.1 hghost
  cases hc
  cases hf
  obtain ⟨own, ⟨classes, hclasses, hown⟩, hfault⟩ :=
    (hv.inducedSlot_outcome "draught" (some "Ship")).2.2.2 hship hdraught
  cases hclasses
  cases hown
  refine ⟨hship, hload, hghost, hanswer, hsail,
    (hv.inducedSlot_outcome "sail" (some "Ship")).2.2.1 hship hsail, hdraught, ?_⟩
  obtain ⟨f, hf, -, hanswer⟩ := hfault fun hfounded => by
    obtain ⟨above, habove⟩ := Registry.exists_slotAncestorsOf_iff.2 hfounded
    cases habove
  cases hf
  exact hanswer

end SlotFrame.View
