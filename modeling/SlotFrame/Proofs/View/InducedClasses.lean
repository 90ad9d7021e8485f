import SlotFrame.Proofs.Registry.InducedClasses
import SlotFrame.Proofs.Registry.Layering
import SlotFrame.Proofs.View.Remembering

/-! # Induced classes as a view answers them

An induced class is to list what the class has. It lists the names that its slots bear, so it does
exactly if these are the names under which the class has them, as in a registry in which every slot
and attribute bears the name that it stands under.

Main definition: `View.Lists`.

Main statement: `View.Reachable.inducedClass_lists`. -/

namespace SlotFrame.View

/-- A class that lists what a class has: its slots and the keys of its attributes are the names of
all slots of that class, under each name stands the slot as it is seen from there, and nothing is
left to refine. -/
structure Lists (v : View) (c : String) (k : ClassDef) : Prop where
  slots : v.registry.classSlots c = .ok k.slots
  keys : k.attributes.keys = k.slots
  seen : ∀ n ∈ k.slots, ∃ d,
    (v.ask (inducedSlot n (some c))).1 = .ok d ∧ k.attributes.get? n = some d
  slotUsage : k.slotUsage = ∅

/-- **What an induced class lists.** It is made of the slots of the class as they are seen from it,
in their order: its slots are the names that they bear, the keys of its attributes are these names
once each, under a name stands the last slot that bears it, and nothing is left to refine. So it
lists what the class has exactly if every slot bears the name under which the class has it, which is
so where every slot and attribute bears the name that it stands under. -/
theorem Reachable.inducedClass_lists {v : View} (hv : v.Reachable) {c : String} {k : ClassDef}
    (h : (v.ask (inducedClass c)).1 = .ok k) :
    ∃ names ds, v.registry.classSlots c = .ok names ∧
      List.Forall₂ (fun n d => (v.ask (inducedSlot n (some c))).1 = .ok d) names ds ∧
      k.slots = ds.map SlotDef.name ∧ k.attributes.keys = k.slots.eraseDups ∧
      (∀ n, k.attributes.get? n = ds.reverse.find? fun d => d.name = n) ∧ k.slotUsage = ∅ ∧
      (v.Lists c k ↔ ds.map SlotDef.name = names) ∧ (v.registry.Named → v.Lists c k) := by
  have hseen : ∀ n, (v.ask (inducedSlot n (some c))).1 = v.registry.inducedSlot n (some c) :=
    fun n => (answers_inducedSlot n (some c)).answer hv.coherent
  rw [(answers_inducedClass c).answer hv.coherent] at h
  obtain ⟨k₀, names, ds, _, hnames, hall, rfl⟩ := Registry.exists_of_inducedClass h
  have hiff : v.Lists c (Registry.withInduced k₀ ds) ↔ ds.map SlotDef.name = names := by
    constructor
    · intro hlists
      exact Except.ok.inj (hlists.slots.symm.trans hnames)
    · rintro rfl
      rw [List.forall₂_map_left_iff, List.forall₂_same] at hall
      refine ⟨hnames, ?_, ?_, rfl⟩
      · rw [Registry.keys_attributes_withInduced]
        exact eraseDups_of_nodup (Registry.nodup_classSlots hnames)
      · intro n hn
        obtain ⟨d, hd, rfl⟩ := List.mem_map.1 hn
        exact ⟨d, (hseen d.name).trans (hall d hd), Registry.get?_attributes_of_borne k₀ hall hd⟩
  refine ⟨names, ds, hnames, ?_, rfl, Registry.keys_attributes_withInduced k₀ ds,
    Registry.get?_attributes_withInduced k₀ ds, rfl, hiff, ?_⟩
  · simpa only [hseen] using hall
  · intro hnamed
    exact hiff.2 (hnamed.namesKept.map_name hnames hall)

/-- A captain is a sailor with a rank; both sail on a ship. -/
def crew : Schema where
  name := "crew"
  slots := Table.ofList [("rank", { name := "rank", range := some "text" })]
  classes := Table.ofList
    [("Sailor", { name := "Sailor",
                  attributes := Table.ofList [("ship", { name := "ship" })] }),
     ("Captain", { name := "Captain", isA := some "Sailor", slots := ["rank"],
                   slotUsage := Table.ofList [("rank", { required := some true })] })]

theorem inducedClass_lists_captain :
    ∃ k, ((ofSchema crew {}).ask (inducedClass "Captain")).1 = .ok k ∧
      k.slots = ["rank", "ship"] ∧ (ofSchema crew {}).Lists "Captain" k := by
  refine ⟨_, rfl, rfl, ?_⟩
  obtain ⟨_, _, _, _, _, _, _, _, _, hlists⟩ :=
    (Reachable.ofSchema crew {}).inducedClass_lists (c := "Captain") rfl
  exact hlists (by decide +kernel)

/-- A person has two slots, and both bear one name. -/
def twins : Schema where
  name := "twins"
  slots := Table.ofList
    [("first", { name := "name", required := some true }), ("last", { name := "name" })]
  classes := Table.ofList [("Person", { name := "Person", slots := ["first", "last"] })]

/-- Of two slots that bear one name an induced class lists that name twice and keeps only the last
slot. -/
theorem inducedClass_loses_first :
    (ofSchema twins {}).Reachable ∧
      (ofSchema twins {}).registry.classSlots "Person" = .ok ["first", "last"] ∧
      ∃ k, ((ofSchema twins {}).ask (inducedClass "Person")).1 = .ok k ∧
        k.slots = ["name", "name"] ∧ k.attributes.keys = ["name"] ∧
        k.attributes.get? "first" = none ∧ ¬ (ofSchema twins {}).Lists "Person" k := by
  refine ⟨.ofSchema twins {}, rfl, _, rfl, rfl, rfl, rfl, ?_⟩
  intro hlists
  have hslots := Except.ok.inj hlists.slots
  exact absurd hslots (by decide +kernel)

end SlotFrame.View
