import SlotFrame.Import.Resolve
import SlotFrame.Proofs.Namespace.Contraction

/-! # Where bare references lead

A reference without a colon that the map of references does not hold is tried under names: its own
if it is written with an extension, else one for each extension. Every name is tried beside the
importing document before any is tried in a search path, and every name in one search path before
any in the next. The first place at which a document exists is the answer, so what is added behind
it changes nothing.

Main definitions: `Source.Shows`, `FirstPresent`, `ImportConfig.TriedUnder`, `ImportConfig.places`.

Main statements: `ImportConfig.places_append` (more search paths give more places behind the
others), `ImportConfig.resolve_eq_find?` (a search for the first place) and
`ImportConfig.resolve_bare`. -/

namespace SlotFrame

variable {m : Type → Type} [Monad m]

/-- A source tells of every location whether a document exists there, and has no other effect. -/
def Source.Shows (source : Source m) (present : Location → Bool) : Prop :=
  ∀ l, source.contains l = pure (present l)

/-! ### The first of some places -/

/-- A place at which a document exists, while none exists at the places before it. -/
structure FirstPresent (present : Location → Bool) (places before : List Location)
    (l : Location) : Prop where
  placed : ∃ after, places = before ++ l :: after
  found : present l = true
  missing : ∀ x ∈ before, present x = false

theorem find?_eq_some_iff_firstPresent {present : Location → Bool} {places : List Location}
    {l : Location} :
    places.find? present = some l ↔ ∃ before, FirstPresent present places before l := by
  rw [List.find?_eq_some_iff_append]
  constructor
  · rintro ⟨hfound, before, after, hplaces, hmissing⟩
    exact ⟨before, ⟨after, hplaces⟩, hfound, fun x hx => by simpa using hmissing x hx⟩
  · rintro ⟨before, ⟨after, hplaces⟩, hfound, hmissing⟩
    exact ⟨hfound, before, after, hplaces, fun x hx => by simpa using hmissing x hx⟩

/-- The first place stays the first when places are added at the end and documents appear that are
not before it. -/
theorem FirstPresent.mono {present present' : Location → Bool} {places before : List Location}
    {l : Location} (h : FirstPresent present places before l)
    (hkept : ∀ x, present x = true → present' x = true)
    (hlater : ∀ x, present' x = true → present x = false → x ∉ before) (more : List Location) :
    FirstPresent present' (places ++ more) before l where
  placed := by
    obtain ⟨after, rfl⟩ := h.placed
    exact ⟨after ++ more, by rw [List.append_assoc, List.cons_append]⟩
  found := hkept l h.found
  missing x hx := by
    rw [← Bool.not_eq_true]
    intro hpresent
    exact hlater x hpresent (h.missing x hx) hx

namespace ImportConfig

theorem firstExisting_eq_find? [LawfulMonad m] {source : Source m} {present : Location → Bool}
    (hsource : source.Shows present) (places : List Location) :
    firstExisting source places = pure (places.find? present) := by
  induction places with
  | nil => rfl
  | cons l places ih =>
    rw [firstExisting, hsource l, pure_bind, List.find?_cons]
    cases present l with
    | true => rfl
    | false => exact ih

/-! ### Names and places -/

/-- A reference is written with one of some extensions. -/
def WrittenWith (extensions : List String) (reference : String) : Prop :=
  ∃ ext ∈ extensions, ∃ stem, reference = stem ++ "." ++ ext

theorem any_endsWith_iff (extensions : List String) (reference : String) :
    (extensions.any fun ext => endsWith reference ("." ++ ext)) = true ↔
      WrittenWith extensions reference := by
  rw [List.any_eq_true]
  refine exists_congr fun ext => and_congr_right fun _ => ?_
  unfold endsWith
  rw [List.isSuffixOf_iff_suffix]
  constructor
  · rintro ⟨stem, hstem⟩
    refine ⟨String.ofList stem, String.toList_inj.1 ?_⟩
    rw [String.append_assoc, String.toList_append, String.toList_ofList, hstem]
  · rintro ⟨stem, rfl⟩
    exact ⟨stem.toList, by rw [String.append_assoc, ← String.toList_append]⟩

/-- The names that a reference is tried under: its own, or one for each extension if it is written
with none of them. -/
structure TriedUnder (extensions : List String) (reference : String) (names : List String) :
    Prop where
  written : WrittenWith extensions reference → names = [reference]
  unwritten : ¬ WrittenWith extensions reference →
    names = extensions.map fun ext => reference ++ "." ++ ext

theorem triedUnder_fileNames (c : ImportConfig) (reference : String) :
    TriedUnder c.extensions reference (c.fileNames reference) where
  written h := if_pos ((any_endsWith_iff c.extensions reference).2 h)
  unwritten h := if_neg fun hany => h ((any_endsWith_iff c.extensions reference).1 hany)

/-- The path of a name that stands beside the document at a path, or by itself. -/
def beside : Option String → String → String
  | none, name => name
  | some path, name => FilePath.join ((FilePath.parent? path).getD "") name

/-- The places at which some names are tried: beside the importing document, and then in each of the
search paths. -/
def places (importer : Option String) (searchPaths names : List String) : List Location :=
  (names.map fun n => .file (beside importer n)) ++
    searchPaths.flatMap fun dir => names.map fun n => .file (FilePath.join dir n)

theorem places_append (importer : Option String) (searchPaths more names : List String) :
    places importer (searchPaths ++ more) names = places importer searchPaths names ++
      more.flatMap fun dir => names.map fun n => .file (FilePath.join dir n) := by
  unfold places
  rw [List.flatMap_append, List.append_assoc]

/-- A bare reference of a file, or of nothing, is tried at places that can all be told. -/
theorem candidates_map_file (c : ImportConfig) (reference : String) (importer : Option String) :
    c.candidates reference (importer.map .file) =
      .ok (places importer c.searchPaths (c.fileNames reference)) := by
  unfold candidates
  cases importer with
  | none => rfl
  | some path =>
    have hbeside : (c.fileNames reference).mapM (Location.file path).sibling =
        (.ok ((c.fileNames reference).map fun n => .file (beside (some path) n)) :
          Result (List Location)) := List.mapM_pure
    dsimp only [Option.map_some]
    rw [hbeside]
    rfl

/-- What becomes of a bare reference is told by the first place at which a document exists. -/
theorem resolve_eq_find? [LawfulMonad m] (c : ImportConfig) {reference : String}
    (importer : Option String) (hcolon : ':' ∉ reference.toList)
    (hmap : reference ∉ c.importMap.keys) {source : Source m} {present : Location → Bool}
    (hsource : source.Shows present) (expand : String → Result String) :
    let ls := places importer c.searchPaths (c.fileNames reference)
    c.resolve source expand reference (importer.map .file) =
      pure (match ls.find? present with
        | some l => .ok l
        | none => .error (notFound reference ls)) := by
  intro ls
  have hnone : c.importMap.get? reference = none := (lookupKey_eq_none_iff _ _).2 hmap
  have hbare : ¬ c.needsExpansion reference = true := by
    unfold needsExpansion occurs
    rw [Bool.and_eq_true, not_and]
    intro _ hoccurs
    exact hcolon ((occursIn_singleton ':' _).1 hoccurs)
  unfold resolve
  rw [hnone]
  dsimp only
  rw [if_neg hbare, candidates_map_file]
  dsimp only
  rw [firstExisting_eq_find? hsource, pure_bind]
  cases ls.find? present <;> rfl

/-- **A bare reference leads to the first place at which a document exists.** It is looked for under
its own name if it is written with an extension, else under a name for each extension: first beside
the importing document, then in one search path after the other, in each under all names in turn.
The first of these places at which a document exists is the answer. Where there is none, and only
then, the import fails, with all the places in this order. The answer stays the same when search
paths are added behind the others and documents appear at places that do not come before it; a place
that is tried more than once counts where it is tried first. -/
theorem resolve_bare [LawfulMonad m] (c : ImportConfig) {reference : String}
    (importer : Option String) (hcolon : ':' ∉ reference.toList)
    (hmap : reference ∉ c.importMap.keys) {source : Source m} {present : Location → Bool}
    (hsource : source.Shows present) (expand : String → Result String) :
    let names := c.fileNames reference
    let ls := places importer c.searchPaths names
    TriedUnder c.extensions reference names ∧
    (∃ answer : Result Location,
      c.resolve source expand reference (importer.map .file) = pure answer ∧
      (∀ l, answer = .ok l ↔ ∃ before, FirstPresent present ls before l) ∧
      ∀ f, answer = .error f ↔ (∀ l ∈ ls, present l = false) ∧
        f = .importFailed reference
          ("not found, tried: " ++ ", ".intercalate (ls.map Location.render))) ∧
    ∀ before l, FirstPresent present ls before l →
      ∀ (paths : List String) {source' : Source m} {present' : Location → Bool}
        (expand' : String → Result String), source'.Shows present' →
        (∀ x, present x = true → present' x = true) →
        (∀ x, present' x = true → present x = false → x ∉ before) →
        ({ c with searchPaths := c.searchPaths ++ paths } : ImportConfig).resolve source' expand'
          reference (importer.map .file) = pure (.ok l) := by
  intro names ls
  refine ⟨triedUnder_fileNames c reference, ⟨_, c.resolve_eq_find? importer hcolon hmap hsource
    expand, fun l => ?_, fun f => ?_⟩, ?_⟩
  · rw [← find?_eq_some_iff_firstPresent]
    cases ls.find? present <;> simp
  · have hmissing : (∀ l ∈ ls, present l = false) ↔ ls.find? present = none := by
      rw [List.find?_eq_none]
      simp only [Bool.not_eq_true]
    rw [hmissing]
    cases ls.find? present with
    | some l => simp
    | none =>
      simp only [true_and, Except.error.injEq]
      exact eq_comm
  · intro before l hl paths source' present' expand' hsource' hkept hlater
    let c' : ImportConfig := { c with searchPaths := c.searchPaths ++ paths }
    have hfirst : (places importer c'.searchPaths (c'.fileNames reference)).find? present' =
        some l := by
      rw [places_append]
      exact find?_eq_some_iff_firstPresent.2 ⟨before, hl.mono hkept hlater _⟩
    have hresolve := c'.resolve_eq_find? importer hcolon hmap hsource' expand'
    exact hresolve.trans (by rw [hfirst])

/-- Empty documents at some paths. -/
def documentsAt (paths : List String) : Source Id where
  contains l := pure (decide (l.render ∈ paths))
  deliver _ := pure (.text "")

theorem shows_documentsAt (paths : List String) :
    (documentsAt paths).Shows fun l => decide (l.render ∈ paths) :=
  fun _ => rfl

/-- The second name beside the importing document comes before the first in a search path, and
neither a document that appears behind it nor one more search path matters. Where no document
exists, all places are listed. -/
theorem resolve_bare_beside :
    let c : ImportConfig := { searchPaths := ["lib"] }
    let importer := (some "dir/main.yaml").map Location.file
    TriedUnder c.extensions "base" ["base.yaml", "base.yml", "base.json"] ∧
    c.resolve (documentsAt ["lib/base.yaml", "dir/base.yml"]) .ok "base" importer =
      (pure (.ok (.file "dir/base.yml")) : Id (Result Location)) ∧
    ({ c with searchPaths := ["lib", "more"] } : ImportConfig).resolve
        (documentsAt ["more/base.yaml", "dir/base.json", "dir/base.yml", "lib/base.yaml"]) .ok
        "base" importer = (pure (.ok (.file "dir/base.yml")) : Id (Result Location)) ∧
    c.resolve (documentsAt []) .ok "base.yml" importer =
      (pure (.error (.importFailed "base.yml" "not found, tried: dir/base.yml, lib/base.yml")) :
        Id (Result Location)) := by
  intro c importer
  have hfirst : FirstPresent (fun l => decide (l.render ∈ ["lib/base.yaml", "dir/base.yml"]))
      (places (some "dir/main.yaml") c.searchPaths (c.fileNames "base"))
      [.file "dir/base.yaml"] (.file "dir/base.yml") :=
    ⟨⟨[.file "dir/base.json", .file "lib/base.yaml", .file "lib/base.yml", .file "lib/base.json"],
      by decide⟩, by decide, by decide⟩
  have hbase : ':' ∉ "base".toList ∧ "base" ∉ c.importMap.keys := by decide
  have hwhole : ':' ∉ "base.yml".toList ∧ "base.yml" ∉ c.importMap.keys := by decide
  obtain ⟨hnames, ⟨answer, hanswer, hok, -⟩, hstable⟩ :=
    resolve_bare c (some "dir/main.yaml") hbase.1 hbase.2
      (shows_documentsAt ["lib/base.yaml", "dir/base.yml"]) .ok
  obtain ⟨-, ⟨answer', hanswer', -, herror⟩, -⟩ :=
    resolve_bare c (some "dir/main.yaml") hwhole.1 hwhole.2 (shows_documentsAt []) .ok
  refine ⟨hnames, ?_, ?_, ?_⟩
  · exact hanswer.trans (congrArg pure ((hok _).2 ⟨_, hfirst⟩))
  · refine hstable _ _ hfirst ["more"] .ok (shows_documentsAt _) (fun x hx => ?_)
      fun x hx _ hbefore => ?_
    · simp only [decide_eq_true_eq, List.mem_cons] at hx ⊢
      grind
    · cases List.mem_singleton.1 hbefore
      exact absurd hx (by decide)
  · exact hanswer'.trans (congrArg pure ((herror _).2 ⟨by decide, by decide⟩))

end ImportConfig

end SlotFrame
