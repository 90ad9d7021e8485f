import SlotFrame.Proofs.Registry.Faults
import SlotFrame.Proofs.Walk.Calls

/-! # What strictness adds

A strict walk and a lenient one take the same steps until the strict one refuses what it finds. A
lookup is never refused, so with a visitor that refuses nothing a lenient walk refuses nothing; a
strict walk that refuses nothing is the lenient walk, call by call, whatever it ends with; and one
that refuses has made the first calls of the lenient walk.

Main definitions: `Result.Mismatched`, `Lenient`.

Main statements: `Lenient.simulation` (each step of a strict walk is that of a lenient one or
refuses) and `walk_strict_lenient`. -/

namespace SlotFrame

variable {σ α β : Type}

/-- A value was refused for its shape. -/
def Result.Mismatched (r : Result α) : Prop := ∃ path message, r = .error (.mismatch path message)

theorem Result.not_mismatched_ok (a : α) : ¬ Result.Mismatched (.ok a : Result α) := by
  rintro ⟨_, _, h⟩
  cases h

/-- What is refused has nothing to do with what was to come of it. -/
theorem Result.mismatched_error {f : Fault} (h : Result.Mismatched (.error f : Result α)) :
    Result.Mismatched (.error f : Result β) := by
  obtain ⟨path, message, h⟩ := h
  cases h
  exact ⟨path, message, rfl⟩

/-- A lookup refuses nothing. -/
theorem Registry.not_mismatched_slotPlace (r : Registry) (p : Place) (key : String) :
    ¬ Result.Mismatched (r.slotPlace p key) := by
  rintro ⟨path, message, h⟩
  cases fault_of_slotPlace h

/-- How a strict program with notes compares with the lenient one: the lenient one refuses nothing;
the strict one does the same unless it refuses, and then it has noted the first calls of the lenient
one. Notes are never taken back. -/
structure Lenient (m m' : Walk (σ × List (Call σ)) α) : Prop where
  spared : ∀ w, ¬ Result.Mismatched (m'.runFrom w).1
  same : ∀ w, ¬ Result.Mismatched (m.runFrom w).1 → m'.runFrom w = m.runFrom w
  ahead : ∀ w, Result.Mismatched (m.runFrom w).1 → (m.runFrom w).2.2 <+: (m'.runFrom w).2.2
  grows : ∀ w, w.2 <+: (m'.runFrom w).2.2

namespace Lenient

/-- A program that refuses nothing compares with itself. -/
theorem refl {m : Walk (σ × List (Call σ)) α} (hspared : ∀ w, ¬ Result.Mismatched (m.runFrom w).1)
    (hgrows : ∀ w, w.2 <+: (m.runFrom w).2.2) : Lenient m m where
  spared := hspared
  same _ _ := rfl
  ahead w hm := absurd hm (hspared w)
  grows := hgrows

theorem ofResult {r : Result α} (h : ¬ Result.Mismatched r) :
    Lenient (Walk.ofResult r : Walk (σ × List (Call σ)) α) (Walk.ofResult r) :=
  refl (fun _ => h) fun _ => List.prefix_rfl

theorem pure (a : α) : Lenient (Pure.pure a : Walk (σ × List (Call σ)) α) (Pure.pure a) :=
  refl (fun _ => Result.not_mismatched_ok a) fun _ => List.prefix_rfl

section bind

variable {m m' : Walk (σ × List (Call σ)) α} {k k' : α → Walk (σ × List (Call σ)) β}
  {w w₁ : σ × List (Call σ)}

/-- Where the first part ends well the second one compares from there. -/
theorem run_bind_of_ok {a : α} (hm : Lenient m m') (k k' : α → Walk (σ × List (Call σ)) β)
    (h : m.runFrom w = (.ok a, w₁)) :
    (m >>= k).runFrom w = (k a).runFrom w₁ ∧ (m' >>= k').runFrom w = (k' a).runFrom w₁ := by
  have hsame : m'.runFrom w = (.ok a, w₁) := by
    rw [hm.same w (by rw [h]; exact Result.not_mismatched_ok a), h]
  exact ⟨Walk.runFrom_bind_of_ok h, Walk.runFrom_bind_of_ok hsame⟩

theorem grows_bind (hk : ∀ a, Lenient (k a) (k' a)) (w : σ × List (Call σ)) :
    (m'.runFrom w).2.2 <+: ((m' >>= k').runFrom w).2.2 := by
  rcases h : m'.runFrom w with ⟨outcome, w₁⟩
  cases outcome with
  | ok a =>
    rw [Walk.runFrom_bind_of_ok h]
    exact (hk a).grows w₁
  | error f =>
    have hrun : (m' >>= k').runFrom w = (.error f, w₁) := Walk.runFrom_bind_of_error h
    exact ⟨[], by rw [hrun, List.append_nil]⟩

/-- By cases on how the strict first part ends: the second parts are compared only where it ends
well; where it refuses, the lenient walk goes on alone and only adds notes. -/
theorem bind (hm : Lenient m m') (hk : ∀ a, Lenient (k a) (k' a)) :
    Lenient (m >>= k) (m' >>= k') where
  spared w := by
    rcases h : m'.runFrom w with ⟨outcome, w₁⟩
    cases outcome with
    | ok a =>
      rw [Walk.runFrom_bind_of_ok h]
      exact (hk a).spared w₁
    | error f =>
      rw [Walk.runFrom_bind_of_error h]
      have hspared := hm.spared w
      rw [h] at hspared
      exact fun hmis => hspared (Result.mismatched_error hmis)
  same w := by
    rcases h : m.runFrom w with ⟨outcome, w₁⟩
    cases outcome with
    | ok a =>
      obtain ⟨hrun, hrun'⟩ := hm.run_bind_of_ok k k' h
      rw [hrun, hrun']
      exact (hk a).same w₁
    | error f =>
      rw [Walk.runFrom_bind_of_error h]
      intro hno
      have hsame := hm.same w (by rw [h]; exact fun hmis => hno (Result.mismatched_error hmis))
      rw [h] at hsame
      exact Walk.runFrom_bind_of_error hsame
  ahead w := by
    rcases h : m.runFrom w with ⟨outcome, w₁⟩
    cases outcome with
    | ok a =>
      obtain ⟨hrun, hrun'⟩ := hm.run_bind_of_ok k k' h
      rw [hrun, hrun']
      exact (hk a).ahead w₁
    | error f =>
      rw [Walk.runFrom_bind_of_error h]
      intro hmis
      have hahead := hm.ahead w (by rw [h]; exact Result.mismatched_error hmis)
      rw [h] at hahead
      exact hahead.trans (grows_bind hk w)
  grows w := (hm.grows w).trans (grows_bind hk w)

end bind

/-- What is refused only by a strict program. -/
theorem refuse {m' : Walk (σ × List (Call σ)) α} (p : Place) (problem : String)
    (hspared : ∀ w, ¬ Result.Mismatched (m'.runFrom w).1)
    (hgrows : ∀ w, w.2 <+: (m'.runFrom w).2.2) : Lenient (Walk.refuse p problem) m' where
  spared := hspared
  same _ hno := absurd ⟨_, _, rfl⟩ hno
  ahead w _ := hgrows w
  grows := hgrows

/-- Each step of a strict walk is that of the lenient one, unless it refuses. -/
theorem simulation (r : Registry) {visit : Visitor σ}
    (hvisit : ∀ node p s, ¬ Result.Mismatched ((visit node p).runFrom s).1) :
    Simulation r true false visit.recorded visit.recorded Lenient where
  result := pure
  next := bind
  place p key := ofResult (r.not_mismatched_slotPlace p key)
  call node p := refl (fun w => hvisit node p w.1) fun w => List.prefix_append w.2 _
  demand bad p problem hm := by
    rw [Bool.and_false, Bool.and_true]
    cases bad with
    | true => exact refuse p _ hm.spared hm.grows
    | false => exact hm

end Lenient

/-- **Strict and lenient walks agree until the first mismatch.** With a visitor that refuses
nothing, a lenient walk refuses nothing; where the strict walk ends in anything but a refusal, the
lenient one ends in the same after the same calls; and where the strict walk refuses, its calls are
the first ones of the lenient walk. -/
theorem walk_strict_lenient {visit : Visitor σ}
    (hvisit : ∀ node place s, ¬ Result.Mismatched ((visit node place).runFrom s).1) (r : Registry)
    (p : Place) (v : Value) (s : σ) :
    ¬ Result.Mismatched ((walk r false visit p v).runFrom s).1 ∧
    (¬ Result.Mismatched ((walk r true visit p v).runFrom s).1 →
      (walk r false visit p v).runFrom s = (walk r true visit p v).runFrom s ∧
      walkCalls r false visit p v s = walkCalls r true visit p v s) ∧
    (Result.Mismatched ((walk r true visit p v).runFrom s).1 →
      walkCalls r true visit p v s <+: walkCalls r false visit p v s) := by
  have h := (Lenient.simulation r hvisit).relates_walk p v
  have hstrict := (run_recorded_walk r true visit p v s).1
  have hlenient := (run_recorded_walk r false visit p v s).1
  have hspared := h.spared (s, [])
  have hsame := h.same (s, [])
  have hahead := h.ahead (s, [])
  rw [hlenient] at hspared hsame hahead
  rw [hstrict] at hsame hahead
  refine ⟨hspared, fun hno => ?_, hahead⟩
  have heq := hsame hno
  simp only [Prod.mk.injEq] at heq
  exact ⟨Prod.ext heq.1 heq.2.1, heq.2.2⟩

/-- Items have a label and any number of tags. -/
def items : Registry :=
  .ofSchema { name := "tags", classes := Table.ofList [
    ("Item", { attributes := Table.ofList [
      ("label", {}), ("tags", { multivalued := some true })] })] }

/-- Where an item stands. -/
def itemPlace : Place := { instanceOf := (items.class? "Item").map .ofClass }

/-- Counts the nodes. -/
def counting : Visitor Nat := fun node _ => do
  modify (· + 1)
  return node

/-- An item whose tags are one text. -/
def singleTag : Value := .record [("label", .text "a"), ("tags", .text "x")]

/-- An item with a key that is no slot. -/
def coloured : Value := .record [("label", .text "a"), ("colour", .text "red")]

theorem walk_strict_lenient_items :
    (∀ node place s, ¬ Result.Mismatched ((counting node place).runFrom s).1) ∧
    Result.Mismatched ((walk items true counting itemPlace singleTag).runFrom 0).1 ∧
    (walkCalls items true counting itemPlace singleTag 0 <+:
      walkCalls items false counting itemPlace singleTag 0) ∧
    ¬ Result.Mismatched ((walk items false counting itemPlace singleTag).runFrom 0).1 ∧
    (walkCalls items true counting itemPlace singleTag 0).length = 1 ∧
    (walkCalls items false counting itemPlace singleTag 0).length = 3 ∧
    ¬ Result.Mismatched ((walk items true counting itemPlace coloured).runFrom 0).1 ∧
    (walk items false counting itemPlace coloured).runFrom 0 =
      (walk items true counting itemPlace coloured).runFrom 0 ∧
    (walk items true counting itemPlace coloured).runFrom 0 =
      (.error (.unresolved .slotDef "colour" (some "Item")), 1) := by
  have hvisit : ∀ node place s, ¬ Result.Mismatched ((counting node place).runFrom s).1 :=
    fun node _ _ => Result.not_mismatched_ok node
  have hsingle : (walk items true counting itemPlace singleTag).runFrom 0 =
      (.error (.mismatch "/tags" "expected array, found \"x\""), 1) := rfl
  have hcoloured : (walk items true counting itemPlace coloured).runFrom 0 =
      (.error (.unresolved .slotDef "colour" (some "Item")), 1) := rfl
  have hrefused : Result.Mismatched ((walk items true counting itemPlace singleTag).runFrom 0).1 :=
    ⟨_, _, congrArg Prod.fst hsingle⟩
  have hno : ¬ Result.Mismatched ((walk items true counting itemPlace coloured).runFrom 0).1 := by
    rw [hcoloured]
    rintro ⟨_, _, h⟩
    cases h
  obtain ⟨hspared, _, hahead⟩ := walk_strict_lenient hvisit items itemPlace singleTag 0
  obtain ⟨_, hsame, _⟩ := walk_strict_lenient hvisit items itemPlace coloured 0
  exact ⟨hvisit, hrefused, hahead hrefused, hspared, rfl, rfl, hno, (hsame hno).1, hcoloured⟩

end SlotFrame
