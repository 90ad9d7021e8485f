import SlotFrame.Proofs.Import.DepthFirst

/-! # Courses of searches for imports

A search for imports that comes to its end takes a course: the steps of the loop, each with the
document that it has found. The loop keeps a stack on which a reference may lie several times, and
remembers for every reference only the document that asked for it last. What is remembered of a
reference that is not visited yet is the owner of its topmost occurrence, and that is the occurrence
that is followed; so a course goes through the documents as the recursive search does.

Main definitions: `ImportSearch.Waiting`, `Course`.

Main statement: `Course.depthFirst` (a course is a recursive search). -/

namespace SlotFrame

/-! ### Owners of waiting references -/

/-- A search for which the references of a list of owned references wait, each unvisited one known
under the owner of its first occurrence, and which has visited what is registered. -/
structure ImportSearch.Waiting (s : ImportSearch) (owned : List (String × String)) (r : Registry) :
    Prop where
  pending : s.pending = owned.map Prod.fst
  askedBy : ∀ i, i ∉ s.visited → s.askedBy.lookup i = owned.lookup i
  visited : ∀ i, i ∈ s.visited ↔ r.contains i = true

/-- References with one owner. -/
def ownedBy (owner : String) (references : List String) : List (String × String) :=
  references.map fun i => (i, owner)

theorem map_fst_ownedBy (owner : String) (references : List String) :
    (ownedBy owner references).map Prod.fst = references := by
  unfold ownedBy
  rw [List.map_map]
  exact List.map_id references

/-- When a document has been visited, its imports wait on top, all of them known under it. -/
theorem ImportSearch.waiting_follow {s : ImportSearch} {i : String} {r : Registry}
    {owned : List (String × String)} (hpending : s.pending = owned.map Prod.fst)
    (hasked : ∀ j, j ∉ i :: s.visited → s.askedBy.lookup j = owned.lookup j)
    (hvisited : ∀ j, j ∈ i :: s.visited ↔ r.contains j = true) (imports : List String) :
    (s.follow i imports).Waiting
      (ownedBy i (imports.reverse.filter fun j => ! r.contains j) ++ owned) r := by
  have hfresh : (imports.filter (· ∉ i :: s.visited)).reverse =
      imports.reverse.filter fun j => ! r.contains j := by
    rw [← List.filter_reverse]
    apply List.filter_congr
    intro j _
    have hj : decide (j ∈ i :: s.visited) = r.contains j := by
      rw [Bool.eq_iff_iff, decide_eq_true_iff]
      exact hvisited j
    rw [decide_not, hj]
  unfold ImportSearch.follow
  dsimp only
  rw [hfresh]
  constructor
  case pending => rw [List.map_append, map_fst_ownedBy, hpending]
  case askedBy =>
    intro j hj
    rw [List.lookup_append, List.lookup_append, hasked j hj]
    rfl
  case visited => exact hvisited

namespace ImportSearch.Waiting

variable {s : ImportSearch} {i owner : String} {owned : List (String × String)} {r : Registry}

theorem lookup_of_ne (h : s.Waiting ((i, owner) :: owned) r) {j : String} (hne : j ≠ i)
    (hj : j ∉ s.visited) : s.askedBy.lookup j = owned.lookup j := by
  rw [h.askedBy j hj, List.lookup_cons, beq_eq_false_iff_ne.2 hne]

/-- The next reference is read relative to the document that owns it. -/
theorem importer (h : s.Waiting ((i, owner) :: owned) r) (hi : i ∉ s.visited) {importer : Schema}
    (himporter : r.document? owner = some importer) :
    (s.askedBy.lookup i).bind r.document? = some importer := by
  rw [h.askedBy i hi, List.lookup_cons, beq_self_eq_true]
  exact himporter

theorem pass (h : s.Waiting ((i, owner) :: owned) r) (hi : i ∈ s.visited) :
    Waiting { s with pending := owned.map Prod.fst } owned r where
  pending := rfl
  askedBy j hj := by
    refine h.lookup_of_ne ?_ hj
    rintro rfl
    exact hj hi
  visited := h.visited

theorem follow (h : s.Waiting ((i, owner) :: owned) r) (d : Schema)
    (hnew : ¬ r.contains i = true) :
    Waiting (ImportSearch.follow { s with pending := owned.map Prod.fst } i d.imports)
      (ownedBy i (d.imports.reverse.filter fun j => ! (r.insert i d hnew).contains j) ++ owned)
      (r.insert i d hnew) := by
  refine ImportSearch.waiting_follow rfl ?_ ?_ d.imports
  · intro j hj
    rw [List.mem_cons, not_or] at hj
    exact h.lookup_of_ne hj.1 hj.2
  · intro j
    rw [List.mem_cons, Registry.contains_insert_iff, h.visited]

end ImportSearch.Waiting

/-! ### Courses -/

/-- The steps in which a search comes to its end within a limit, with all that it finds. -/
inductive Course (c : ImportConfig) (source : Source Id) (kept : Registry → PrefixCache) :
    Nat → ImportSearch → Registry → List Found → Registry → Prop
  | done {limit : Nat} {s : ImportSearch} {r : Registry} (hp : s.pending = []) :
      Course c source kept (limit + 1) s r [] r
  | pass {limit : Nat} {s : ImportSearch} {i : String} {rest : List String} {r r' : Registry}
      {found : List Found} (hp : s.pending = i :: rest) (hi : i ∈ s.visited)
      (after : Course c source kept limit { s with pending := rest } r found r') :
      Course c source kept (limit + 1) s r found r'
  | visit {limit : Nat} {s : ImportSearch} {i : String} {rest : List String} {r r' : Registry}
      {importer d : Schema} {l : Location} {found : List Found} (hp : s.pending = i :: rest)
      (hi : i ∉ s.visited) (unregistered : ¬ r.contains i = true)
      (himporter : (s.askedBy.lookup i).bind r.document? = some importer)
      (led : leadsWith c source kept r importer i l d)
      (after : Course c source kept limit
        (ImportSearch.follow { s with pending := rest } i d.imports)
        (r.insert i d unregistered) found r') :
      Course c source kept (limit + 1) s r (⟨i, l, d⟩ :: found) r'

namespace Course

variable {c : ImportConfig} {source : Source Id} {kept : Registry → PrefixCache} {limit : Nat}
  {s : ImportSearch} {r r' : Registry} {found : List Found}

theorem entries_eq (h : Course c source kept limit s r found r') :
    r'.entries = r.entries ++ found.map Found.entry := by
  induction h with
  | done => rw [List.map_nil, List.append_nil]
  | pass _ _ _ ih => exact ih
  | visit _ _ hnew _ _ _ ih =>
    rw [ih, Registry.entries_insert _ hnew, List.append_assoc]
    rfl

/-- A course ends when nothing waits. -/
theorem eq_of_pending (h : Course c source kept limit s r found r') (hp : s.pending = []) :
    found = [] ∧ r' = r := by
  cases h with
  | done _ => exact ⟨rfl, rfl⟩
  | pass hp' _ _ =>
    rw [hp] at hp'
    cases hp'
  | visit hp' _ _ _ _ _ =>
    rw [hp] at hp'
    cases hp'

/-- A course goes through the references on top of its stack as the recursive search does before it
turns to the rest. -/
theorem depthFirst (h : Course c source kept limit s r found r') {owner : String}
    {importer : Schema} {references : List String} {rest : List (String × String)}
    (hs : s.Waiting (ownedBy owner references ++ rest) r)
    (himporter : r.document? owner = some importer) :
    ∃ found₁ found₂ limit₁ s₁ r₁, found = found₁ ++ found₂ ∧ limit₁ ≤ limit ∧
      s₁.Waiting rest r₁ ∧ DepthFirst (leadsWith c source kept) importer references r found₁ r₁ ∧
      Course c source kept limit₁ s₁ r₁ found₂ r' := by
  induction limit using Nat.strongRecOn generalizing s r found owner importer references rest with
  | ind limit ih =>
    cases references with
    | nil => exact ⟨[], found, limit, s, r, rfl, Nat.le_refl limit, hs, .done importer r, h⟩
    | cons i references =>
      have hwaiting : s.Waiting ((i, owner) :: (ownedBy owner references ++ rest)) r := hs
      have hpending := hwaiting.pending
      cases h with
      | done hp =>
        rw [hp] at hpending
        cases hpending
      | @pass limit _ j _ _ _ _ hp hj after =>
        rw [hp] at hpending
        obtain ⟨rfl, rfl⟩ := List.cons_eq_cons.1 hpending
        obtain ⟨found₁, found₂, limit₁, s₁, r₁, hfound, hle, hs₁, hdfs, hrest⟩ :=
          ih limit (Nat.lt_succ_self limit) after (hwaiting.pass hj) himporter
        exact ⟨found₁, found₂, limit₁, s₁, r₁, hfound, Nat.le_succ_of_le hle, hs₁,
          .pass ((hs.visited j).1 hj) hdfs, hrest⟩
      | @visit limit _ j _ _ _ asker d l found hp hj hnew hasker led after =>
        rw [hp] at hpending
        obtain ⟨rfl, rfl⟩ := List.cons_eq_cons.1 hpending
        obtain rfl : asker = importer := by
          rw [hwaiting.importer hj himporter] at hasker
          exact (Option.some.inj hasker).symm
        have hd : (r.insert j d hnew).document? j = some d := Registry.document?_insert_self d hnew
        have himporter₁ := Registry.document?_insert_of_document? d hnew himporter
        -- First come the imports of the new document, then the other references.
        obtain ⟨below, found₁, limit₁, s₁, r₁, rfl, hle₁, hs₁, hbelow, hrest₁⟩ :=
          ih limit (Nat.lt_succ_self limit) after (hwaiting.follow d hnew) hd
        obtain ⟨later, found₂, limit₂, s₂, r₂, rfl, hle₂, hs₂, hlater, hrest₂⟩ :=
          ih limit₁ (Nat.lt_succ_of_le hle₁) hrest₁ hs₁ (hbelow.document?_mono himporter₁)
        have hbelow' := hbelow.of_filter _ fun k hk => by simpa using hk
        refine ⟨⟨j, l, d⟩ :: (below ++ later), found₂, limit₂, s₂, r₂, ?_, by omega, hs₂,
          .visit hnew led hbelow' hlater, hrest₂⟩
        rw [List.cons_append, List.append_assoc]

end Course

end SlotFrame
