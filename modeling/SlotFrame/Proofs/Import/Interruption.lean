import SlotFrame.Import.Load
import SlotFrame.Import.Resolve

/-! # Interrupted sources

A source may fail to deliver documents for a while. It knows the same locations all the time, so
every reference is resolved as before, and a document that is delivered is the same as ever.

Main definitions: `Source.reads`, `Source.Interrupts`.

Main statements: `Source.Interrupts.documentOf` and `ImportConfig.resolve_contains_congr`. -/

namespace SlotFrame

/-- Whether a text was delivered. -/
def Delivery.isText : Delivery → Bool
  | .text _ => true
  | .failed _ => false
  | .stalled => false

namespace Source

variable {broken source : Source Id} {l : Location}

/-- Whether a source delivers a text. -/
def reads (source : Source Id) (l : Location) : Bool := Delivery.isText (source.deliver l)

/-- A source that knows the locations that another one knows and delivers the same texts, but may
fail to deliver some of them. -/
structure Interrupts (broken source : Source Id) : Prop where
  contains (l : Location) : broken.contains l = source.contains l
  text {l : Location} {s : String} (h : broken.deliver l = (pure (.text s) : Id Delivery)) :
    source.deliver l = (pure (.text s) : Id Delivery)

theorem Interrupts.refl (source : Source Id) : source.Interrupts source := ⟨fun _ => rfl, id⟩

/-- A source that answers as another one does, but never delivers one of its documents. -/
def stalling (source : Source Id) (l : Location) : Source Id where
  contains := source.contains
  deliver l' := if l' = l then (pure .stalled : Id Delivery) else source.deliver l'

theorem interrupts_stalling (source : Source Id) (l : Location) :
    (source.stalling l).Interrupts source where
  contains _ := rfl
  text {l' s} h := by
    have hif : (if l' = l then (pure .stalled : Id Delivery) else source.deliver l') =
        (pure (.text s) : Id Delivery) := h
    split at hif
    · cases hif
    · exact hif

theorem Interrupts.documentOf (h : broken.Interrupts source) (hl : broken.reads l = true)
    (timeout : Duration) : SlotFrame.documentOf timeout l (broken.deliver l) =
      SlotFrame.documentOf timeout l (source.deliver l) := by
  unfold reads at hl
  cases hd : (broken.deliver l : Delivery) with
  | text s => rw [h.text hd]; rfl
  | failed f =>
    rw [hd] at hl
    cases hl
  | stalled =>
    rw [hd] at hl
    cases hl

theorem exists_fault_of_not_reads (hl : source.reads l = false) (timeout : Duration) :
    ∃ f, documentOf timeout l (source.deliver l) = .error f := by
  unfold reads at hl
  cases hd : (source.deliver l : Delivery) with
  | text s =>
    rw [hd] at hl
    cases hl
  | failed f => exact ⟨f, rfl⟩
  | stalled => exact ⟨_, rfl⟩

theorem reads_of_documentOf {timeout : Duration} {d : Schema}
    (h : documentOf timeout l (source.deliver l) = .ok d) : source.reads l = true := by
  cases hl : source.reads l with
  | true => rfl
  | false =>
    obtain ⟨f, hf⟩ := exists_fault_of_not_reads hl timeout
    rw [hf] at h
    cases h

end Source

namespace ImportConfig

variable {broken source : Source Id} (h : ∀ l, broken.contains l = source.contains l)

include h

theorem firstExisting_contains_congr (ls : List Location) :
    (firstExisting broken ls : Id (Option Location)) = firstExisting source ls := by
  induction ls with
  | nil => rfl
  | cons l ls ih =>
    unfold firstExisting
    rw [h l, ih]

/-- References are resolved by what exists alone. -/
theorem resolve_contains_congr (c : ImportConfig) (expand : String → Result String)
    (reference : String) (importer : Option Location) :
    (c.resolve broken expand reference importer : Id (Result Location)) =
      c.resolve source expand reference importer := by
  unfold resolve
  simp only [firstExisting_contains_congr h]

end ImportConfig

end SlotFrame
