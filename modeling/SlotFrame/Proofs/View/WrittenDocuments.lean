import SlotFrame.Proofs.Registry.WrittenDocuments
import SlotFrame.Proofs.View.Materialization

/-! # What a view writes into its documents

A view induces the slots of all classes before it writes any of them, so what it writes are its
answers from before, and with a fault it writes nothing. Each class is written once, where it is
looked up.

Main statement: `View.Reachable.materialize_writes`. -/

namespace SlotFrame.View

/-- **Writing out the induced slots reads the old documents only, and is done as a whole or not at
all.** It succeeds exactly if the slots of every class can be induced. With a fault the registry and
the epoch stay as they are. Otherwise every class that was found has, behind the attributes that it
had, each of its slots in order as it was seen from it, under the name that this bears; the class is
written in the newest document that declares it, and nothing else in any document changes. -/
theorem Reachable.materialize_writes {v : View} (hv : v.Reachable) :
    ((v.ask View.materialize).1 = .ok () ↔
      ∀ c ∈ (v.registry.classes true).keys, ∃ ds, (v.ask (classInducedSlots c)).1 = .ok ds) ∧
    (∀ f, (v.ask View.materialize).1 = .error f →
      (v.ask View.materialize).2.registry = v.registry ∧ (v.ask View.materialize).2.epoch = v.epoch) ∧
    ((v.ask View.materialize).1 = .ok () → ∃ induced : String → List SlotDef,
      (∀ c ∈ (v.registry.classes true).keys, ∃ k names,
        v.registry.class? c = some k ∧ v.registry.classSlots c = .ok names ∧
          List.Forall₂ (fun n d => (v.ask (inducedSlot n (some c))).1 = .ok d) names (induced c) ∧
          (v.ask View.materialize).2.registry.class? c = some { k with
            attributes := (induced c).foldl (fun t d => t.insert d.name d) k.attributes }) ∧
      (v.ask View.materialize).2.registry.entries = v.registry.entries.map (fun e =>
        (e.1, e.2.withListed v.registry.homeOf? induced e.1)) ∧
      (v.ask View.materialize).2.epoch = v.epoch + 1) := by
  have hseen : ∀ n c, (v.ask (inducedSlot n (some c))).1 = v.registry.inducedSlot n (some c) :=
    fun n c => (answers_inducedSlot n (some c)).answer hv.coherent
  have hall : ∀ c, (v.ask (classInducedSlots c)).1 = v.registry.classInducedSlots c :=
    fun c => (answers_classInducedSlots c).answer hv.coherent
  simp only [hseen, hall, ← Registry.exists_inducedSlots_iff]
  rcases materialize_cases hv.coherent with ⟨f, hf, hask, hunchanged⟩ |
    ⟨slots, hslots, hask, hregistry, hepoch⟩
  · rw [hask, hf]
    refine ⟨⟨nofun, nofun⟩, fun _ _ => ?_, nofun⟩
    rw [hunchanged]
    exact ⟨rfl, rfl⟩
  · rw [hask, hregistry]
    refine ⟨⟨fun _ => ⟨slots, hslots⟩, fun _ => rfl⟩, nofun, fun _ => ?_⟩
    refine ⟨Registry.written slots, fun c hc => ?_, Registry.entries_writeAll slots _, hepoch⟩
    obtain ⟨k, hk⟩ := Registry.mem_classes_iff.1 hc
    have hds := Registry.classInducedSlots_eq_written hslots hc
    obtain ⟨names, hnames, heach⟩ := Result.bind_eq_ok_iff.1 hds
    have hafter := Registry.class?_writeAll slots v.registry c
    rw [hk] at hafter
    exact ⟨k, names, hk, hnames, Result.forall₂_of_mapM heach, hafter⟩

/-- A ship is declared in two documents, and a boat is a ship as the newer one declares it. -/
def shipyard : View :=
  (((ofSchema
    { name := "p"
      imports := ["x.json"]
      slots := Table.ofList [("length", { range := some "integer" })]
      classes := Table.ofList
        [("Ship", { attributes := Table.ofList [("title", {})] }),
          ("Boat", { isA := some "Ship"
                     slotUsage := Table.ofList [("length", { required := some true })] })] }
    {}).loadImports (m := StateM Unit) (.ofTable <| Table.ofList
      [("x.json", .text ("\x7b\"name\": \"x\", " ++
        "\"classes\": \x7b\"Ship\": \x7b\"slots\": [\"length\"]\x7d\x7d\x7d"))]) ∅).run ()).1.2

theorem shipyard_written : (shipyard.ask materialize).1 = .ok () ∧
    "Boat" ∈ (shipyard.registry.classes true).keys ∧
    shipyard.registry.classSlots "Boat" = .ok ["length"] ∧
    shipyard.registry.keys = ["p", "x.json"] ∧
    shipyard.registry.homeOf? "Ship" = some "x.json" ∧
    shipyard.registry.homeOf? "Boat" = some "p" := by
  decide +kernel

/-- The boat has the slot of the ship; the older ship stays as it was declared. -/
theorem materialize_writes_shipyard :
    shipyard.Reachable ∧ (shipyard.ask materialize).1 = .ok () ∧
      (∃ k d, (shipyard.ask (inducedSlot "length" (some "Boat"))).1 = .ok d ∧
        (shipyard.ask materialize).2.registry.class? "Boat" = some k ∧
        k.attributes.get? d.name = some d) ∧
      (shipyard.ask materialize).2.registry.primary.classes.get? "Ship" =
        shipyard.registry.primary.classes.get? "Ship" := by
  have hv : shipyard.Reachable := .loadImports _ ∅ () (.ofSchema _ _)
  obtain ⟨hwritten, hboat, hslots, hkeys, hship, -⟩ := shipyard_written
  obtain ⟨-, -, hok⟩ := hv.materialize_writes
  obtain ⟨induced, hclasses, hentries, -⟩ := hok hwritten
  refine ⟨hv, hwritten, ?_, ?_⟩
  · obtain ⟨k, names, hk, hnames, heach, hafter⟩ := hclasses "Boat" hboat
    cases hslots.symm.trans hnames
    obtain ⟨d, rest, hd, hrest, hinduced⟩ := List.forall₂_cons_left_iff.1 heach
    cases List.forall₂_nil_left_iff.1 hrest
    rw [hinduced] at hafter
    refine ⟨_, d, hd, hafter, ?_⟩
    simp [Table.get?_insert]
  · have hprimary := congrArg Prod.snd (List.cons.inj hentries).1
    have hkey : shipyard.registry.key = "p" := (List.cons.inj hkeys).1
    have hother : shipyard.registry.homeOf? "Ship" ≠ some shipyard.registry.key := by
      rw [hship, hkey]
      decide
    rw [show (shipyard.ask materialize).2.registry.primary = _ from hprimary]
    exact Schema.get?_withListed_of_ne hother induced _

end SlotFrame.View
