import SlotFrame.Proofs.Registry.Layering
import SlotFrame.Proofs.View.Remembering

/-! # What writing out the induced slots of a view leaves unseen

A view that writes out the induced slots of all classes answers from its new documents. No class has
another slot than before, and settled slots are seen as before. A slot that is an attribute, or that
inherits from one, need not be settled: a refinement may have given it a parent, a class above may
see it as inheriting from elsewhere, and the attribute that it inherits from may have been refined.

Main statements: `View.Reachable.materialize_keeps` and `View.materialize_changes_slots`. -/

namespace SlotFrame.View

/-- A view writes out what its registry induces, or nothing if that has a fault. -/
theorem materialize_cases {v : View} (hv : v.Coherent) :
    (∃ f, v.registry.inducedSlots = .error f ∧ (v.ask materialize).1 = .error f ∧
      (v.ask materialize).2 = { v with memo := (v.ask materialize).2.memo }) ∨
    ∃ slots, v.registry.inducedSlots = .ok slots ∧ (v.ask materialize).1 = .ok () ∧
      (v.ask materialize).2.registry = v.registry.writeAll slots ∧
      (v.ask materialize).2.epoch = v.epoch + 1 := by
  have hanswer := answers_inducedSlots.answer hv
  have hunchanged := answers_inducedSlots.unchanged v
  unfold materialize
  rw [ask_bind, ← hanswer]
  cases h : v.ask inducedSlots with
  | mk r v' =>
    rw [h] at hunchanged
    have hsame : v' = { v with memo := v'.memo } := hunchanged
    cases r with
    | error f => exact .inl ⟨f, rfl, rfl, hsame⟩
    | ok slots =>
      refine .inr ⟨slots, rfl, rfl, ?_, ?_⟩
      · show v'.registry.writeAll slots = v.registry.writeAll slots
        rw [hsame]
      · show v'.epoch + 1 = v.epoch + 1
        rw [hsame]

theorem ask_materialize {v : View} (hv : v.Coherent) : v.registry.materialize =
    (v.ask materialize).1.map fun _ => (v.ask materialize).2.registry := by
  unfold Registry.materialize
  rcases materialize_cases hv with ⟨f, hf, hask, -⟩ | ⟨slots, hslots, hask, hregistry, -⟩
  · rw [hf, hask]
    rfl
  · rw [hslots, hask, hregistry]
    rfl

/-- **Writing out the induced slots keeps what is settled.** Whenever it succeeds, every slot having
kept the name that it was looked for under, every class has the slots that it had, each of which was
induced before. It is seen as it was exactly if it covers all that it is made of anew, which settled
slots do; and if all that the classes saw is settled, writing out again succeeds and changes no
document. -/
theorem Reachable.materialize_keeps {v : View} (hv : v.Reachable)
    (h : (v.ask View.materialize).1 = .ok ()) (hnames : v.registry.NamesKept) :
    ∃ v', v' = (v.ask View.materialize).2 ∧
      (∀ c ∈ (v.registry.classes true).keys, ∃ names names',
        v.registry.classSlots c = .ok names ∧ v'.registry.classSlots c = .ok names' ∧
          (∀ n, n ∈ names' ↔ n ∈ names) ∧
          ∀ n ∈ names, ∃ d, (v.ask (inducedSlot n (some c))).1 = .ok d ∧
            ∀ s : v.registry.SlotSources n (some c),
              ((v'.ask (inducedSlot n (some c))).1 = .ok d ↔ s.Recovered v'.registry d) ∧
                (s.Settled d → (v'.ask (inducedSlot n (some c))).1 = .ok d)) ∧
      (v.registry.AllSettled → (v'.ask View.materialize).1 = .ok () ∧
        (v'.ask View.materialize).2.registry = v'.registry) := by
  have hwritten := ask_materialize hv.coherent
  rw [h] at hwritten
  have hm := Registry.materialized_of_materialize hnames hwritten
  have hv' : (v.ask View.materialize).2.Reachable := .materialize hv
  refine ⟨_, rfl, ?_, ?_⟩
  · intro c hc
    obtain ⟨k, hk⟩ := Registry.mem_classes_iff.1 hc
    obtain ⟨names, names', hslots, hslots', hsame⟩ := hm.classSlots hk
    refine ⟨names, names', hslots, hslots', hsame, fun n hn => ?_⟩
    obtain ⟨d, hd⟩ := (hm.seen c k hk).2 n ⟨names, hslots, hn⟩
    rw [(answers_inducedSlot n (some c)).answer hv.coherent,
      (answers_inducedSlot n (some c)).answer hv'.coherent]
    refine ⟨d, hd.2, fun s => ⟨hm.inducedSlot_eq_ok_iff s hd, fun hs => ?_⟩⟩
    exact (hm.inducedSlot_eq_ok_iff s hd).2 (hm.recovered hd hs)
  · intro hall
    have hagain := ask_materialize hv'.coherent
    rw [hm.materialize hnames hall] at hagain
    cases houtcome : ((v.ask View.materialize).2.ask View.materialize).1 with
    | error f =>
      rw [houtcome] at hagain
      cases hagain
    | ok u =>
      rw [houtcome] at hagain
      exact ⟨rfl, (Except.ok.inj hagain).symm⟩

/-- A class lists a slot and has an attribute, which a class below refines. -/
def staff : View := ofSchema
  { name := "p"
    classes := Table.ofList
      [("A", { slots := ["s"], attributes := Table.ofList [("id", {})]
               slotUsage := Table.ofList [("s", { required := some true })] }),
        ("B", { isA := some "A"
                slotUsage := Table.ofList [("id", { range := some "string" })] })]
    slots := Table.ofList [("s", { isA := some "t" }), ("t", { range := some "integer" })] }
  {}

theorem staff_settled : (staff.ask materialize).1 = .ok () ∧ staff.registry.Named ∧
    staff.registry.Layered ∧ "B" ∈ (staff.registry.classes true).keys ∧
    staff.registry.classSlots "B" = .ok ["s", "id"] ∧
    (staff.ask (inducedSlot "id" (some "B"))).1.map SlotDef.range = .ok (some "string") := by
  decide +kernel

/-- The attribute of a class above is seen as before, and nothing is left to write. -/
theorem materialize_keeps_staff :
    staff.Reachable ∧ (staff.ask materialize).1 = .ok () ∧ staff.registry.NamesKept ∧
      staff.registry.AllSettled ∧ ∃ v', v' = (staff.ask materialize).2 ∧
        (v'.ask (inducedSlot "id" (some "B"))).1.map SlotDef.range = .ok (some "string") ∧
        (v'.ask materialize).1 = .ok () ∧ (v'.ask materialize).2.registry = v'.registry := by
  have hv : staff.Reachable := .ofSchema _ _
  obtain ⟨hwritten, hnamed, hlayered, hclass, hslots, hrange⟩ := staff_settled
  have hall := hlayered.allSettled
  obtain ⟨v', hv', hclasses, hagain⟩ := hv.materialize_keeps hwritten hnamed.namesKept
  refine ⟨hv, hwritten, hnamed.namesKept, hall, v', hv', ?_, hagain hall⟩
  obtain ⟨names, _, hnames, _, _, hseen⟩ := hclasses "B" hclass
  cases Except.ok.inj (hslots.symm.trans hnames)
  obtain ⟨d, hbefore, hafter⟩ := hseen "id" (by decide)
  have hsees : staff.registry.Sees "B" "id" d := by
    refine ⟨⟨_, hslots, by decide⟩, ?_⟩
    rw [← (answers_inducedSlot "id" (some "B")).answer hv.coherent]
    exact hbefore
  obtain ⟨s, hs⟩ := hall "B" "id" d hsees
  rw [(hafter s).2 hs, ← hrange, hbefore]

/-! ### Slots that are not settled -/

/-- A view of one document with classes and slots. -/
def ofClasses (classes : List (String × ClassDef)) (slots : List (String × SlotDef)) : View :=
  ofSchema { name := "p", classes := Table.ofList classes, slots := Table.ofList slots } {}

/-- The range of a slot as a class sees it. -/
def rangeSeen (v : View) (name className : String) : Result (Option String) :=
  (v.ask (inducedSlot name (some className))).1.map SlotDef.range

/-- The range of an attribute as it stands in a class. -/
def rangeWritten (v : View) (name className : String) : Option (Option String) :=
  ((v.registry.class? className).bind fun c => c.attributes.get? name).map SlotDef.range

/-- Written out once the only slot of a class is seen otherwise, written out twice it stands there
otherwise. -/
def GainsRange (v : View) : Prop :=
  (v.ask materialize).1 = .ok () ∧ v.registry.classSlots "C" = .ok ["s"] ∧
    rangeSeen v "s" "C" = .ok none ∧
    rangeSeen (v.ask materialize).2 "s" "C" = .ok (some "integer") ∧
    rangeWritten (v.ask materialize).2 "s" "C" = some none ∧
    rangeWritten ((v.ask materialize).2.ask materialize).2 "s" "C" = some (some "integer")

instance (v : View) : Decidable (GainsRange v) :=
  inferInstanceAs (Decidable (_ ∧ _ ∧ _ ∧ _ ∧ _ ∧ _))

/-- A slot that bears another name. -/
def renamed : View := ofClasses [("C", { slots := ["a"] })] [("a", { name := "b" })]

/-- A refinement gives an attribute a parent. -/
def refined : View := ofClasses
  [("C", { attributes := Table.ofList [("s", {})]
           slotUsage := Table.ofList [("s", { isA := some "q" })] })]
  [("q", { range := some "integer" })]

/-- A class above sees an attribute as inheriting from elsewhere. -/
def overridden : View := ofClasses
  [("A", { attributes := Table.ofList [("s", { isA := some "q" })] }),
    ("C", { isA := some "A", attributes := Table.ofList [("s", { isA := some "p" })] })]
  [("p", {}), ("q", { range := some "integer" })]

/-- An attribute inherits from one that its class refines. -/
def inherited : View := ofClasses
  [("B", { attributes := Table.ofList [("t", {})]
           slotUsage := Table.ofList [("t", { range := some "integer" })] }),
    ("C", { attributes := Table.ofList [("s", { isA := some "t" })] })]
  []

/-- An attribute inherits from one to which its class gives a parent. -/
def redirected : View := ofClasses
  [("B", { attributes := Table.ofList [("t", {})]
           slotUsage := Table.ofList [("t", { isA := some "q" })] }),
    ("C", { attributes := Table.ofList [("s", { isA := some "t" })] })]
  [("q", { range := some "integer" })]

/-- Writing out gives a class another slot if a slot bears another name, and changes a slot that is
not settled, for each reason that there can be. -/
theorem materialize_changes_slots :
    ((renamed.ask materialize).1 = .ok () ∧ renamed.registry.classSlots "C" = .ok ["a"] ∧
      (renamed.ask materialize).2.registry.classSlots "C" = .ok ["a", "b"]) ∧
    GainsRange refined ∧ GainsRange overridden ∧ GainsRange inherited ∧ GainsRange redirected := by
  decide +kernel

end SlotFrame.View
