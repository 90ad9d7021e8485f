import SlotFrame.Command.Render
import SlotFrame.Proofs.Registry.Printed
import SlotFrame.Proofs.View.Materialization
import SlotFrame.Proofs.View.PrefixHistory
import SlotFrame.Proofs.View.PrimaryDocument
import SlotFrame.Proofs.View.WritableDocuments

/-! # What the command prints stands alone

The command loads a schema with what it imports, folds all of it into one document, writes the
induced slots out and prints the result. A run that ends well is taken apart into these steps, and
each of them hands on what the next one needs. Whatever has been read can be written, and folding
and inducing slots keep it so; the folded document has the elements of all documents loaded and no
imports; inducing slots changes no parent of a class. So what is printed is read as one document
that needs no other, in which every class has the ancestors of the folded view.

Of the text only this is left open: that it is read as the tree of the value printed. It is asked
for where the text itself is read, and of that value alone.

Main definition: `Json.RoundTrips`.

Main statement: `Arguments.render_standsAlone`. -/

namespace SlotFrame

/-! ### Text and value -/

/-- The text of a value is read as its tree. -/
def Json.RoundTrips (v : Value) : Prop := read (pretty v) = .ok (Tree.ofValue v)

/-- The text of a value is read character by character. -/
theorem Json.roundTrips_of_readTree {v : Value}
    (h : readTree (2 * (prettyChars 0 v).length + 2) 127 (prettyChars 0 v) =
      .ok (Tree.ofValue v, [])) : Json.RoundTrips v := by
  unfold Json.RoundTrips read pretty
  rw [String.toList_ofList]
  dsimp only
  rw [h]
  rfl

/-- A text that is read as the tree of a value is read as the document that the value decodes
to. -/
theorem Json.RoundTrips.read_of_decode {v : Value} {s : Schema} (h : Json.RoundTrips v)
    (hdecode : (Schema.decode (Tree.ofValue v)).map Schema.normalize = .ok s) :
    Schema.read .json (Json.pretty v) = .ok s := by
  have htree : Json.read (Json.pretty v) = .ok (Tree.ofValue v) := h
  unfold Schema.read Schema.readRaw Format.readTree
  dsimp only
  rw [htree]
  cases hraw : Schema.decode (Tree.ofValue v) with
  | error e =>
    rw [hraw] at hdecode
    cases hdecode
  | ok raw =>
    rw [hraw] at hdecode
    have hnormal : raw.normalize = s := Except.ok.inj hdecode
    dsimp only [Except.mapError, bind, Except.bind]
    rw [hraw, ← hnormal]

namespace Arguments

/-! ### Programs that end well -/

section Programs

variable {σ α β : Type} {s s' : σ} {b : β}

theorem exists_run_of_run_bind {x : ExceptT Fault (StateM σ) α}
    {k : α → ExceptT Fault (StateM σ) β} (h : (x >>= k).run.run s = (.ok b, s')) :
    ∃ a s₁, x.run.run s = (.ok a, s₁) ∧ (k a).run.run s₁ = (.ok b, s') := by
  rw [ExceptT.run_bind, StateT.run_bind] at h
  cases hx : x.run.run s with
  | mk r s₁ =>
    rw [hx] at h
    cases r with
    | error f => cases h
    | ok a => exact ⟨a, s₁, rfl, h⟩

/-- What is lifted does not fail. -/
theorem run_of_run_lift_bind {x : StateM σ α} {k : α → ExceptT Fault (StateM σ) β}
    (h : (ExceptT.lift x >>= k).run.run s = (.ok b, s')) :
    (k (x.run s).1).run.run (x.run s).2 = (.ok b, s') := h

/-- An outcome that is looked at is a good one. -/
theorem run_of_run_pure_bind {r : Result α} {k : α → ExceptT Fault (StateM σ) β}
    (h : (ExceptT.mk (pure r) >>= k).run.run s = (.ok b, s')) :
    ∃ a, r = .ok a ∧ (k a).run.run s = (.ok b, s') := by
  cases r with
  | error f => cases h
  | ok a => exact ⟨a, rfl, h⟩

end Programs

/-! ### The steps of the command -/

variable {W : Type} {around : Surroundings (StateM W)} {cache c : PrefixCache} {a : Arguments}
  {w w' : W} {loaded printed : View} {text : String}

/-- A view is loaded by reading a configuration and the schema, fetching prefix maps and loading the
imports. -/
theorem exists_run_of_loadView (h : (a.loadView around cache).run.run w = (.ok (c, loaded), w')) :
    ∃ config v w₁ w₂ w₃, (configuration around a.config).run w = (.ok config, w₁) ∧
      (View.load around.source a.schema config).run w₁ = (.ok v, w₂) ∧
      (v.loadPrefixMaps around.web cache).run w₂ = ((.ok (), c, v.advance), w₃) ∧
      (v.advance.loadImports around.source c).run w₃ = ((.ok (), loaded), w') := by
  unfold loadView at h
  obtain ⟨config, w₁, hconfig, h⟩ := exists_run_of_run_bind h
  obtain ⟨v, w₂, hload, h⟩ := exists_run_of_run_bind h
  replace h := run_of_run_lift_bind h
  cases hmaps : (v.loadPrefixMaps around.web cache).run w₂ with
  | mk fetched w₃ =>
    obtain ⟨r, c₁, v₁⟩ := fetched
    rw [hmaps] at h
    obtain ⟨_, rfl, h⟩ := run_of_run_pure_bind h
    replace h := run_of_run_lift_bind h
    cases himports : (v₁.loadImports around.source c₁).run w₃ with
    | mk imported w₄ =>
      obtain ⟨r, v₂⟩ := imported
      rw [himports] at h
      obtain ⟨_, rfl, h⟩ := run_of_run_pure_bind h
      cases h
      obtain ⟨c₂, _, hcase | ⟨f, hcase⟩⟩ := View.loadPrefixMaps_cases around.web w₂ v cache
      · rw [hmaps] at hcase
        cases hcase
        exact ⟨config, v, w₁, w₂, w₃, hconfig, hload, hmaps, himports⟩
      · rw [hmaps] at hcase
        cases hcase

/-- A view is prepared by loading it, folding the imports in and writing the induced slots out. -/
theorem exists_run_of_prepare (hmerge : a.merge = true) (hmaterialize : a.materialize = true)
    (h : (a.prepare around cache).run.run w = (.ok printed, w')) :
    ∃ c loaded w₁ merged, (a.loadView around cache).run.run w = (.ok (c, loaded), w₁) ∧
      (loaded.mergeImports around.source c).run w₁ = ((.ok (), merged), w') ∧
      merged.ask View.materialize = (.ok (), printed) := by
  unfold prepare at h
  obtain ⟨⟨c, loaded⟩, w₁, hload, h⟩ := exists_run_of_run_bind h
  dsimp only at h
  rw [if_pos hmerge] at h
  replace h := run_of_run_lift_bind h
  cases hfold : (loaded.mergeImports around.source c).run w₁ with
  | mk folded w₂ =>
    obtain ⟨r, merged⟩ := folded
    rw [hfold] at h
    obtain ⟨_, rfl, h⟩ := run_of_run_pure_bind h
    rw [if_pos hmaterialize] at h
    cases hwrite : merged.ask View.materialize with
    | mk r v =>
      rw [hwrite] at h
      obtain ⟨_, rfl, h⟩ := run_of_run_pure_bind h
      cases h
      exact ⟨c, loaded, w₁, merged, hload, hfold, hwrite⟩

theorem exists_run_of_render (h : (a.render around cache).run w = (.ok text, w')) :
    ∃ printed, (a.prepare around cache).run.run w = (.ok printed, w') ∧
      text = a.format.print printed.primary := by
  unfold render at h
  obtain ⟨printed, w₁, hprepare, h⟩ := exists_run_of_run_bind h
  cases h
  exact ⟨printed, hprepare, rfl⟩

/-! ### What has been loaded -/

/-- A view that holds its primary document alone comes to hold what is imported besides. -/
theorem mem_keys_of_first_load {source : Source (StateM W)} {v v' : View}
    (hloaded : v.loaded = false) (hnone : v.registry.imported = ∅)
    (h : (v.loadImports source c).run w = ((.ok (), v'), w')) (i : String) :
    i ∈ v'.registry.keys ↔ i = v'.registry.key ∨ v'.registry.Imported i := by
  obtain ⟨hkey, _, hkeys, _⟩ := View.mem_keys_of_loadImports hloaded h
  rw [hkeys, hkey, Registry.keys_of_imported_eq_empty hnone, List.mem_singleton]

/-- A loaded view is one that operations lead to. It has loaded its imports, so it holds the primary
document and what is imported, and all of its documents can be written. -/
theorem loaded_of_loadView (h : (a.loadView around cache).run.run w = (.ok (c, loaded), w')) :
    loaded.Reachable ∧ loaded.loaded = true ∧ loaded.registry.Writable ∧
      ∀ i, i ∈ loaded.registry.keys ↔ i = loaded.registry.key ∨ loaded.registry.Imported i := by
  obtain ⟨config, v, w₁, w₂, w₃, _, hload, hmaps, himports⟩ := exists_run_of_loadView h
  have hwritable := View.writable_of_load hload
  have hbefore : v.advance.registry.Writable := hwritable
  obtain ⟨s, _, hview⟩ := View.exists_delivered_of_load hload
  have hunloaded : v.advance.loaded = false := by
    rw [hview]
    rfl
  have hnone : v.advance.registry.imported = ∅ := by
    rw [hview]
    rfl
  have hadvanced : v.advance.Reachable := by
    have hafter := View.Reachable.loadPrefixMaps around.web cache w₂
      (View.reachable_of_load hload)
    rw [hmaps] at hafter
    exact hafter
  have hreached : loaded.Reachable := by
    have hafter := View.Reachable.loadImports around.source c w₃ hadvanced
    rw [himports] at hafter
    exact hafter
  exact ⟨hreached, (View.loaded_of_loadImportsWithin (View.loadImports_eq_ok_iff.1 himports)).1,
    View.writable_loadImports hbefore himports,
    mem_keys_of_first_load hunloaded hnone himports⟩

/-! ### What is printed -/

/-- **What the command prints by default stands alone.** Whenever it succeeds, it has loaded the
primary document with what is imported and nothing else, and folded it together. The value that it
prints decodes to a document without imports, so its text is read as that document wherever it is
read as the value. The document has, kind by kind, the names of the elements of the loaded
documents, in the order of first declaration, and in a new view of it the classes above every class
are known and are those of the folded view before the induced slots were written out. -/
theorem render_standsAlone (hmerge : a.merge = true) (hmaterialize : a.materialize = true)
    (hformat : a.format = .json) (h : (a.render around cache).run w = (.ok text, w')) :
    ∃ (c : PrefixCache) (loaded merged printed : View) (w₁ : W) (s : Schema),
      (a.loadView around cache).run.run w = (.ok (c, loaded), w₁) ∧
      (∀ i, i ∈ loaded.registry.keys ↔
        i = loaded.registry.key ∨ loaded.registry.Imported i) ∧
      (loaded.mergeImports around.source c).run w₁ = ((.ok (), merged), w') ∧
      merged.ask View.materialize = (.ok (), printed) ∧
      text = Json.pretty printed.primary.encode ∧
      (Schema.decode (Tree.ofValue printed.primary.encode)).map Schema.normalize = .ok s ∧
      (Json.RoundTrips printed.primary.encode → Schema.read .json text = .ok s) ∧
      s.imports = [] ∧
      (∀ kind, s.names kind =
        ((loaded.registry.documents true).flatMap fun d => d.names kind).eraseDups) ∧
      ∀ config, ∀ n ∈ s.names .classDef, ∃ above,
        (View.ofSchema s config).registry.classAncestors {} n = .ok above ∧
        merged.registry.classAncestors {} n = .ok above := by
  obtain ⟨printed, hprepare, rfl⟩ := exists_run_of_render h
  obtain ⟨c, loaded, w₁, merged, hload, hfold, hwrite⟩ :=
    exists_run_of_prepare hmerge hmaterialize hprepare
  obtain ⟨hreach, hloaded, hwritable, hkeys⟩ := loaded_of_loadView hload
  -- The imports are loaded, so to fold them in is to flatten the registry.
  have hflat := View.mergeImports_of_loaded hloaded around.source c w₁
  rw [hfold] at hflat
  obtain ⟨hview, _⟩ := Prod.mk.inj hflat
  have hmerged : merged.registry = loaded.registry.flatten := by
    cases hview
    rfl
  have hmergedReach := View.Reachable.mergeImports around.source c w₁ hreach
  rw [hfold] at hmergedReach
  have hmaterial := View.ask_materialize hmergedReach.coherent
  rw [hwrite, hmerged] at hmaterial
  obtain ⟨s, hdecode, himports, hnames, habove⟩ := Registry.printed_standsAlone hwritable hmaterial
  have htext : a.format.print printed.primary = Json.pretty printed.primary.encode := by
    rw [hformat]
    rfl
  rw [htext]
  refine ⟨c, loaded, merged, printed, w₁, s, hload, hkeys, hfold, hwrite, rfl, hdecode,
    fun hcodec => hcodec.read_of_decode hdecode, himports, hnames, fun config n hn => ?_⟩
  rw [hmerged]
  exact habove n hn

/-- A schema that imports a document and declares one of its classes itself, without a parent. -/
def shadowingText : String :=
  "\x7b\"name\": \"p\", \"imports\": [\"a\"], " ++
    "\"classes\": \x7b\"C\": \x7b\"is_a\": \"A\"\x7d, \"A\": \x7b\x7d\x7d\x7d"

/-- The document that is imported, in which that class has a parent. -/
def shadowedText : String :=
  "\x7b\"classes\": \x7b\"A\": \x7b\"is_a\": \"R\"\x7d, \"R\": \x7b\x7d\x7d\x7d"

/-- The two documents, without a configuration file and without a web. -/
def shadowing : Surroundings (StateM Unit) where
  fileText _ := pure (.error "no file")
  source :=
    .ofTable (Table.ofList [("p.json", .text shadowingText), ("a.json", .text shadowedText)])
  web _ := pure .stalled

/-- The call of the command without any flag. -/
def byDefault : Arguments := { schema := "p.json" }

/-- What that call has loaded. -/
def loadedByDefault : PrefixCache × View :=
  ((byDefault.loadView shadowing ∅).run.run ()).1.toOption.getD (∅, default)

/-- What that call has folded together. -/
def mergedByDefault : View :=
  ((loadedByDefault.2.mergeImports shadowing.source loadedByDefault.1).run ()).1.2

/-- In the documents a class reaches the parent that an import gives to the class above it. Once
they are folded together it does not, and so it is in what is printed. -/
theorem render_standsAlone_shadowed : ∃ text s,
    (byDefault.render shadowing ∅).run () = (.ok text, ()) ∧
    Schema.read .json text = .ok s ∧ s.imports = [] ∧ s.names .classDef = ["C", "A", "R"] ∧
    loadedByDefault.2.registry.classAncestors {} "C" = .ok ["C", "A", "R"] ∧
    ∀ config, (View.ofSchema s config).registry.classAncestors {} "C" = .ok ["C", "A"] := by
  have hok : ((byDefault.render shadowing ∅).run ()).1.isOk = true := by decide +kernel
  cases hrun : (byDefault.render shadowing ∅).run () with
  | mk r w =>
    rw [hrun] at hok
    cases r with
    | error f => cases hok
    | ok text =>
      obtain ⟨c, loaded, merged, printed, w₁, s, hload, _, hfold, hwrite, htext, _, hread,
        himports, hnames, habove⟩ := render_standsAlone rfl rfl rfl hrun
      have hloaded : loadedByDefault = (c, loaded) := by
        unfold loadedByDefault
        rw [hload]
        rfl
      have hmerged : mergedByDefault = merged := by
        unfold mergedByDefault
        rw [hloaded, hfold]
      have hprinted : (mergedByDefault.ask View.materialize).2 = printed := by
        rw [hmerged, hwrite]
      have hcodec : Json.RoundTrips (mergedByDefault.ask View.materialize).2.primary.encode :=
        Json.roundTrips_of_readTree (by decide +kernel)
      have hclasses : s.names .classDef = ["C", "A", "R"] := by
        have hdeclared : (((loadedByDefault.2.registry.documents true).flatMap fun d =>
          d.names .classDef).eraseDups) = ["C", "A", "R"] := by decide +kernel
        rw [hnames, ← hdeclared, hloaded]
      refine ⟨text, s, rfl, hread (hprinted ▸ hcodec), himports, hclasses, by decide +kernel,
        fun config => ?_⟩
      obtain ⟨above, hfresh, hbefore⟩ := habove config "C" (by rw [hclasses]; decide)
      have hshadowed : mergedByDefault.registry.classAncestors {} "C" = .ok ["C", "A"] := by
        decide +kernel
      rw [hfresh, ← hbefore, ← hmerged, hshadowed]

end Arguments

end SlotFrame
