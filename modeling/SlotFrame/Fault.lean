import SlotFrame.Schema.Definition

/-! # Faults

What may go wrong while schemas are read, resolved and walked, with the wording of each. -/

namespace SlotFrame

/-- A fault of the library. -/
inductive Fault where
  /-- A text is no schema document. -/
  | parse (message : String)
  /-- A name is not defined; the context says where it was met. -/
  | unresolved (kind : ElementKind) (name : String) (context : Option String)
  /-- A hierarchy returns to where it was: the path begins and ends with one name. -/
  | cyclic (kind : ElementKind) (path : List String)
  /-- A value is not of the shape that its slot asks for. -/
  | mismatch (path message : String)
  /-- An import cannot be loaded. -/
  | importFailed (reference reason : String)
  | namespaces (message : String)
  | config (message : String)
  | io (message : String)
  | serialization (message : String)
  | other (message : String)
  deriving DecidableEq, Repr

/-- The outcome of what may end in a fault. -/
abbrev Result := Except Fault

namespace Result

variable {α β : Type}

theorem bind_eq_ok_iff {r : Result α} {f : α → Result β} {b : β} :
    r >>= f = .ok b ↔ ∃ a, r = .ok a ∧ f a = .ok b := by
  cases r with
  | ok a =>
    constructor
    · intro h
      exact ⟨a, rfl, h⟩
    · rintro ⟨_, ⟨⟩, h⟩
      exact h
  | error e =>
    constructor
    · intro h
      cases h
    · rintro ⟨_, ⟨⟩, _⟩

theorem bind_eq_error_iff {r : Result α} {k : α → Result β} {f : Fault} :
    r >>= k = .error f ↔ r = .error f ∨ ∃ a, r = .ok a ∧ k a = .error f := by
  cases r with
  | error f' =>
    constructor
    · rintro ⟨⟩
      exact .inl rfl
    · rintro (⟨⟨⟩⟩ | ⟨_, ⟨⟩, _⟩)
      rfl
  | ok a =>
    constructor
    · intro h
      exact .inr ⟨a, rfl, h⟩
    · rintro (⟨⟨⟩⟩ | ⟨_, ⟨⟩, h⟩)
      exact h

/-- Outcomes that go on alike from every result that is reached. -/
theorem bind_congr_of_ok {r : Result α} {f g : α → Result β} (h : ∀ a, r = .ok a → f a = g a) :
    r >>= f = r >>= g := by
  cases r with
  | ok a => exact h a rfl
  | error e => rfl

/-- Of outcomes that are all reached each result is that of some input. -/
theorem mem_of_mapM {f : α → Result β} {xs : List α} {ys : List β} (h : xs.mapM f = .ok ys) :
    (∀ x ∈ xs, ∃ y ∈ ys, f x = .ok y) ∧ ∀ y ∈ ys, ∃ x ∈ xs, f x = .ok y := by
  induction xs generalizing ys with
  | nil =>
    cases h
    exact ⟨fun _ hx => absurd hx List.not_mem_nil, fun _ hy => absurd hy List.not_mem_nil⟩
  | cons x xs ih =>
    rw [List.mapM_cons] at h
    obtain ⟨y, hy, h⟩ := bind_eq_ok_iff.1 h
    obtain ⟨ys', hys, h⟩ := bind_eq_ok_iff.1 h
    cases h
    obtain ⟨hto, hfrom⟩ := ih hys
    refine ⟨?_, ?_⟩
    · intro z hz
      rcases List.mem_cons.1 hz with rfl | hz
      · exact ⟨y, List.mem_cons_self, hy⟩
      · obtain ⟨w, hw, hz⟩ := hto z hz
        exact ⟨w, List.mem_cons_of_mem _ hw, hz⟩
    · intro w hw
      rcases List.mem_cons.1 hw with rfl | hw
      · exact ⟨x, List.mem_cons_self, hy⟩
      · obtain ⟨z, hz, hw⟩ := hfrom w hw
        exact ⟨z, List.mem_cons_of_mem _ hz, hw⟩

theorem exists_mapM {f : α → Result β} {xs : List α} (h : ∀ x ∈ xs, ∃ y, f x = .ok y) :
    ∃ ys, xs.mapM f = .ok ys := by
  induction xs with
  | nil => exact ⟨[], rfl⟩
  | cons x xs ih =>
    obtain ⟨y, hy⟩ := h x List.mem_cons_self
    obtain ⟨ys, hys⟩ := ih fun z hz => h z (List.mem_cons_of_mem _ hz)
    refine ⟨y :: ys, ?_⟩
    rw [List.mapM_cons, hy, hys]
    rfl

theorem exists_error_of_not_ok {r : Result α} (h : ¬ ∃ a, r = .ok a) : ∃ f, r = .error f := by
  cases r with
  | ok a => exact absurd ⟨a, rfl⟩ h
  | error f => exact ⟨f, rfl⟩

theorem map_eq_ok_iff {f : α → β} {r : Result α} {b : β} :
    r.map f = .ok b ↔ ∃ a, r = .ok a ∧ f a = b := by
  cases r with
  | ok a => simp [Except.map]
  | error e => simp [Except.map]

theorem map_eq_error_iff {f : α → β} {r : Result α} {fault : Fault} :
    r.map f = .error fault ↔ r = .error fault := by
  cases r with
  | ok a => simp [Except.map]
  | error e => simp [Except.map]

theorem mapError_eq_ok_iff {f : Fault → Fault} {r : Result α} {a : α} :
    r.mapError f = .ok a ↔ r = .ok a := by
  cases r with
  | ok b => exact Iff.rfl
  | error e =>
    constructor
    · intro h
      cases h
    · intro h
      cases h

end Result

namespace Fault

/-- The wording of a fault. -/
def message : Fault → String
  | parse m => "Failed to parse schema: " ++ m
  | unresolved kind name context =>
    "Unresolved " ++ kind.label ++ " reference '" ++ name ++ "'" ++
      (match context with
        | some c => " in " ++ c
        | none => "")
  | cyclic kind path => "Cyclic " ++ kind.label ++ " inheritance: " ++ " -> ".intercalate path
  | mismatch path m => "Structural mismatch at '" ++ path ++ "': " ++ m
  | importFailed reference reason => "Failed to load import '" ++ reference ++ "': " ++ reason
  | namespaces m => "Namespace error: " ++ m
  | config m => "Configuration error: " ++ m
  | io m => "IO error: " ++ m
  | serialization m => "Serialization error: " ++ m
  | other m => m

end Fault

end SlotFrame
