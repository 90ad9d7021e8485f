import SlotFrame.Proofs.Namespace.SharedMaps
import SlotFrame.Proofs.View.PrefixTable

/-! # Which shared maps the table of prefixes knows

A remembered table of prefixes was worked out with the shared maps that were kept at that moment.
Every change of the documents begins an epoch, in which the table is worked out again, and so does a
load of prefix maps that succeeds. One that fails keeps the maps that it has fetched and leaves the
epoch as it is, so a table that was remembered before does not know them.

Main definitions: `View.Step`, `View.History`, `View.Timely`.

Main statements: `View.History.tabled` (what a remembered table was worked out with),
`View.History.namespaces_worked` and `View.namespaces_misses_map` (a table that misses a map). -/

namespace SlotFrame

/-! ### Fetches keep what is kept -/

namespace PrefixCache.Within

variable {a : PrefixCache} {W : Type} (r : RegistryConfig) (web : Web (StateM W))

theorem fetch (name : String) (w : W) : a.Within ((r.fetch web name a).run w).1.2 := by
  have hwithin := (SharedMaps.Grows.run (.start a) [.fetch r name, .go 0,
    .receive 0 ((web.send (Web.readTarget (r.urlFor name))).run w).1, .go 0]).within
  have halone := SharedMaps.run_alone (.start a) r name web w
  exact hwithin.trans (halone ▸ .refl _)

theorem fetchMaps (names : List String) (w : W) :
    a.Within ((View.fetchMaps r web names a).run w).1.2 := by
  induction names generalizing a w with
  | nil => exact refl a
  | cons name names ih =>
    unfold View.fetchMaps
    rw [StateT.run_bind]
    have hfetch := fetch (a := a) r web name w
    cases h : (r.fetch web name a).run w with
    | mk fetched w' =>
      obtain ⟨answer, b⟩ := fetched
      rw [h] at hfetch
      cases answer with
      | ok _ => exact hfetch.trans (ih w')
      | error f => exact hfetch

end PrefixCache.Within

namespace View

/-! ### Questions that do not concern the table -/

section Spares

variable {α β : Type}

/-- A question that leaves the table of prefixes alone. -/
def Spares (q : Asking α) : Prop :=
  ∀ v : View, (v.ask q).2.recalled Memo.namespaces = v.recalled Memo.namespaces

theorem recalled_keep {v : View} {write : Memo → Memo} (hepoch : ∀ m, (write m).epoch = m.epoch)
    (hwrite : ∀ m, (write m).namespaces = m.namespaces) :
    (v.keep write).recalled Memo.namespaces = v.recalled Memo.namespaces := by
  have hsync : (write (v.memo.sync v.epoch)).epoch = v.epoch :=
    (hepoch _).trans (epoch_sync v.memo v.epoch)
  show (if (write (v.memo.sync v.epoch)).epoch = v.epoch then
    (write (v.memo.sync v.epoch)).namespaces else none) = _
  rw [if_pos hsync, hwrite]
  unfold Memo.sync recalled
  split <;> rfl

namespace Spares

theorem pure (a : α) : Spares (Pure.pure a) := fun _ => rfl

theorem throw (fault : Fault) : Spares (MonadExcept.throw fault : Asking α) := fun _ => rfl

theorem ofRegistry (f : Registry → Result α) : Spares (View.ofRegistry f) := by
  intro v
  rw [ask_ofRegistry]

theorem bind {q : Asking α} {k : α → Asking β} (hq : Spares q) (hk : ∀ a, Spares (k a)) :
    Spares (q >>= k) := by
  intro v
  have hv := hq v
  rw [ask_bind]
  cases h : v.ask q with
  | mk r v' =>
    rw [h] at hv
    cases r with
    | ok a => exact (hk a v').trans hv
    | error f => exact hv

/-- A question that looks at the view and becomes one that is known to leave the table alone. -/
theorem look {q : View → Asking α} (hq : ∀ v, Spares (q v)) : Spares (get >>= q) := by
  intro v
  rw [ask_bind, ask_get]
  exact hq v v

theorem mapM {q : α → Asking β} (hq : ∀ a, Spares (q a)) (xs : List α) : Spares (xs.mapM q) := by
  induction xs with
  | nil => exact pure []
  | cons x xs ih =>
    simp only [List.mapM_cons]
    exact (hq x).bind fun b => ih.bind fun bs => pure (b :: bs)

theorem remember {read : Memo → Option α} {write : α → Memo → Memo} {work : Asking α}
    (hwork : Spares work) (hepoch : ∀ a m, (write a m).epoch = m.epoch)
    (hwrite : ∀ a m, (write a m).namespaces = m.namespaces) :
    Spares (View.remember read write work) := by
  intro v
  have hv := hwork v
  rw [ask_remember]
  cases v.recalled read with
  | some a => rfl
  | none =>
    cases h : v.ask work with
    | mk r v' =>
      rw [h] at hv
      cases r with
      | ok a => exact (recalled_keep (hepoch a) (hwrite a)).trans hv
      | error f => exact hv

end Spares

theorem spares_inducedSlot (name : String) (className : Option String) :
    Spares (inducedSlot name className) :=
  .remember (.ofRegistry _) (fun _ _ => rfl) fun _ _ => rfl

theorem spares_inducedType (name : String) : Spares (inducedType name) :=
  .remember (.ofRegistry _) (fun _ _ => rfl) fun _ _ => rfl

theorem spares_classInducedSlots (className : String) : Spares (classInducedSlots className) :=
  .bind (.ofRegistry _) fun names => .mapM (fun n => spares_inducedSlot n (some className)) names

theorem spares_inducedClass (className : String) : Spares (inducedClass className) := by
  refine .remember (.look fun v => ?_) (fun _ _ => rfl) fun _ _ => rfl
  cases v.registry.class? className with
  | some c => exact .bind (spares_classInducedSlots className) fun slots => .pure _
  | none => exact .throw _

theorem spares_inducedSlots : Spares inducedSlots :=
  .look fun _ => .mapM (fun n => .bind (spares_classInducedSlots n) fun _ => .pure _) _

theorem spares_elementOwners : Spares elementOwners :=
  .remember (.ofRegistry _) (fun _ _ => rfl) fun _ _ => rfl

/-- No question but that for the table concerns it. -/
theorem Question.spares {q : Asking α} (hq : Question q) :
    Spares q ∨ ∃ cache, HEq q (View.namespaces cache) := by
  cases hq with
  | inducedSlot name className => exact .inl (spares_inducedSlot name className)
  | inducedType name => exact .inl (spares_inducedType name)
  | classInducedSlots className => exact .inl (spares_classInducedSlots className)
  | inducedClass className => exact .inl (spares_inducedClass className)
  | identifierSlot className =>
    exact .inl (.bind (spares_classInducedSlots className) fun _ => .pure _)
  | inducedSlots => exact .inl spares_inducedSlots
  | elementOwners => exact .inl spares_elementOwners
  | ownerOf element => exact .inl (.bind spares_elementOwners fun _ => .pure _)
  | namespaces cache => exact .inr ⟨cache, HEq.rfl⟩

end Spares

/-! ### Histories -/

/-- One operation on a view, with the shared maps that are kept before it and after. -/
inductive Step : View → PrefixCache → View → PrefixCache → Prop
  | namespaces (v : View) (cache : PrefixCache) : Step v cache (v.ask (namespaces cache)).2 cache
  | ask {α : Type} {q : Asking α} (hq : Question q) (hspares : Spares q) (v : View)
      (cache : PrefixCache) : Step v cache (v.ask q).2 cache
  | editPrimary (f : Schema → Schema) (v : View) (cache : PrefixCache) :
      Step v cache (v.editPrimary f) cache
  | materialize (v : View) (cache : PrefixCache) : Step v cache (v.ask materialize).2 cache
  | loadImports {W : Type} (source : Source (StateM W)) (w : W) (v : View) (cache : PrefixCache) :
      Step v cache ((v.loadImports source cache).run w).1.2 cache
  | mergeImports {W : Type} (source : Source (StateM W)) (w : W) (v : View) (cache : PrefixCache) :
      Step v cache ((v.mergeImports source cache).run w).1.2 cache
  | loadPrefixMaps {W : Type} (web : Web (StateM W)) (w : W) (v : View) (cache : PrefixCache) :
      Step v cache ((v.loadPrefixMaps web cache).run w).1.2.2
        ((v.loadPrefixMaps web cache).run w).1.2.1

/-- The maps that a remembered table was worked out with: those of before while the epoch lasts in
which it is remembered, else those that are kept now. -/
def tableMaps (v v' : View) (worked cache' : PrefixCache) : PrefixCache :=
  if v'.epoch = v.epoch ∧ (v.recalled Memo.namespaces).isSome then worked else cache'

/-- Any finite sequence of operations on a view: what it leads to, the shared maps that are kept
then, and those that the table of prefixes was worked out with. -/
inductive History : View → PrefixCache → PrefixCache → Prop
  | ofSchema (s : Schema) (config : Config) (cache : PrefixCache) :
      History (ofSchema s config) cache cache
  | step {v v' : View} {cache cache' worked : PrefixCache} (h : History v cache worked)
      (hs : Step v cache v' cache') : History v' cache' (tableMaps v v' worked cache')

/-- A load of prefix maps that fails. -/
def Missed (v : View) (cache : PrefixCache) (v' : View) (cache' : PrefixCache) : Prop :=
  ∃ (W : Type) (web : Web (StateM W)) (w w' : W) (f : Fault),
    (v.loadPrefixMaps web cache).run w = ((.error f, cache', v'), w')

/-- A sequence of operations in which no load of prefix maps fails after it has fetched one while a
table is remembered. -/
inductive Timely : View → PrefixCache → Prop
  | ofSchema (s : Schema) (config : Config) (cache : PrefixCache) : Timely (ofSchema s config) cache
  | step {v v' : View} {cache cache' : PrefixCache} (h : Timely v cache)
      (hs : Step v cache v' cache')
      (hmissed : Missed v cache v' cache' → cache' = cache ∨ v.recalled Memo.namespaces = none) :
      Timely v' cache'

/-! ### What a remembered table was worked out with -/

variable {v v' : View} {cache cache' worked : PrefixCache}

/-- A coherent view whose table of prefixes, if it remembers one, was worked out with some of the
maps that are kept. -/
structure Tabled (v : View) (cache worked : PrefixCache) : Prop where
  coherent : v.Coherent
  within : worked.Within cache
  recalled : ∀ t, v.recalled Memo.namespaces = some t → v.registry.namespaces worked = .ok t
  unknown : v.recalled Memo.namespaces = none → worked = cache

namespace Tabled

/-- Without a remembered table all maps are known. -/
theorem fresh (hv : v.Coherent) (h : v.recalled Memo.namespaces = none) (cache : PrefixCache) :
    Tabled v cache cache where
  coherent := hv
  within := .refl cache
  recalled t ht := by
    rw [h] at ht
    cases ht
  unknown _ := rfl

theorem replace (hv : v.Coherent) (r : Registry) (cache : PrefixCache) :
    Tabled (v.replace r) cache cache :=
  fresh (hv.replace r) (recalled_replace hv.notAhead r _) cache

theorem answer (h : Tabled v cache worked) :
    (v.ask (View.namespaces cache)).1 = v.registry.namespaces worked := by
  cases hv : v.recalled Memo.namespaces with
  | none => rw [ask_namespaces_of_recalled_none hv, h.unknown hv]
  | some t =>
    rw [ask_namespaces, hv]
    exact (h.recalled t hv).symm

/-- Asking for the table is what makes it remembered. -/
theorem namespaces (h : Tabled v cache worked) :
    Tabled (v.ask (View.namespaces cache)).2 cache worked := by
  have hv' := (quiet_namespaces cache).coherent h.coherent
  rw [ask_namespaces] at hv' ⊢
  cases hv : v.recalled Memo.namespaces with
  | some t => exact h
  | none =>
    rw [hv] at hv'
    cases hr : v.registry.namespaces cache with
    | error f => exact h
    | ok t =>
      rw [hr] at hv'
      refine ⟨hv', h.within, ?_, fun _ => h.unknown hv⟩
      intro t' ht'
      have hkept : (v.keep fun m => { m with namespaces := some t }).recalled Memo.namespaces =
          some t := if_pos (epoch_sync v.memo v.epoch)
      cases hkept.symm.trans ht'
      rw [h.unknown hv]
      exact hr

/-- Whatever leaves registry, epoch and table alone leaves a view as it was tabled. -/
theorem of_spares (h : Tabled v cache worked) {α : Type} {q : Asking α} (hq : Quiet q)
    (hs : Spares q) : Tabled (v.ask q).2 cache worked where
  coherent := hq.coherent h.coherent
  within := h.within
  recalled t ht := by
    rw [hq.registry v]
    exact h.recalled t ((hs v).symm.trans ht)
  unknown hnone := h.unknown ((hs v).symm.trans hnone)

end Tabled

/-- While no table is remembered all maps are known, so it does not matter when it is worked out. -/
theorem Tabled.tableMaps_eq (h : Tabled v cache worked) (hepoch : v'.epoch = v.epoch) :
    tableMaps v v' worked cache = worked := by
  unfold tableMaps
  cases hv : v.recalled Memo.namespaces with
  | some t => exact if_pos ⟨hepoch, rfl⟩
  | none =>
    rw [h.unknown hv]
    exact if_neg (by simp)

theorem tableMaps_of_epoch_ne (h : v'.epoch ≠ v.epoch) (worked cache' : PrefixCache) :
    tableMaps v v' worked cache' = cache' := if_neg fun he => h he.1

/-- Loading and folding imports either leaves the documents as they were or begins an epoch. -/
theorem loadingWith_tabled (v : View) (cache worked : PrefixCache) :
    LoadingWith cache fun u => v.epoch ≤ u.epoch ∧ Tabled u cache (tableMaps v u worked cache) := by
  have hreplace : ∀ (u : View) (r : Registry), v.epoch ≤ u.epoch → u.Coherent →
      v.epoch ≤ u.epoch + 1 ∧
        Tabled (u.replace r) cache (tableMaps v (u.replace r) worked cache) := by
    intro u r hle hu
    have hne : (u.replace r).epoch ≠ v.epoch := by
      show u.epoch + 1 ≠ v.epoch
      omega
    rw [tableMaps_of_epoch_ne hne]
    exact ⟨Nat.le_succ_of_le hle, .replace hu r cache⟩
  refine { namespaces := ?_, insert := ?_, tagDocuments := ?_, flatten := ?_ }
  · intro u hu
    have hquiet := (quiet_namespaces cache).unchanged u
    have hepoch : (u.ask (View.namespaces cache)).2.epoch = u.epoch := by rw [hquiet]
    have hmaps : tableMaps v (u.ask (View.namespaces cache)).2 worked cache =
        tableMaps v u worked cache := by
      unfold tableMaps
      rw [hepoch]
    rw [hmaps, hepoch]
    exact ⟨hu.1, hu.2.namespaces⟩
  · intro reference d u hnew hu
    exact hreplace u _ hu.1 hu.2.coherent
  · intro u hu
    obtain ⟨hle, htabled⟩ := hreplace u
      (u.registry.mapDocuments fun d => d.tagProvenance d.identity) hu.1 hu.2.coherent
    exact ⟨hle, ⟨stable_coherent.tagDocuments hu.2.coherent, htabled.within, htabled.recalled,
      htabled.unknown⟩⟩
  · intro u hu
    exact hreplace u _ hu.1 hu.2.coherent

/-- A load of prefix maps begins an epoch if it succeeds; if it fails, the view stays as it was. -/
theorem loadPrefixMaps_cases {W : Type} (web : Web (StateM W)) (w : W) (v : View)
    (cache : PrefixCache) : ∃ cache', cache.Within cache' ∧
      (((v.loadPrefixMaps web cache).run w).1 = (.ok (), cache', v.advance) ∨
        ∃ f, ((v.loadPrefixMaps web cache).run w).1 = (.error f, cache', v)) := by
  have hwithin := PrefixCache.Within.fetchMaps (a := cache) v.config.registry web
    v.primary.defaultCuriMaps w
  unfold loadPrefixMaps
  rw [StateT.run_bind]
  cases h : (fetchMaps v.config.registry web v.primary.defaultCuriMaps cache).run w with
  | mk fetched w' =>
    obtain ⟨answer, cache'⟩ := fetched
    rw [h] at hwithin
    refine ⟨cache', hwithin, ?_⟩
    cases answer with
    | ok _ => exact .inl rfl
    | error f => exact .inr ⟨f, rfl⟩

/-- What one operation does to the table of prefixes. -/
theorem Step.tabled (hs : Step v cache v' cache') (h : Tabled v cache worked) :
    Tabled v' cache' (tableMaps v v' worked cache') := by
  cases hs with
  | namespaces =>
    have hquiet := (quiet_namespaces cache).unchanged v
    rw [h.tableMaps_eq (by rw [hquiet])]
    exact h.namespaces
  | ask hq hspares =>
    have hquiet := hq.quiet.unchanged v
    rw [h.tableMaps_eq (by rw [hquiet])]
    exact h.of_spares hq.quiet hspares
  | editPrimary f =>
    rw [tableMaps_of_epoch_ne (Nat.succ_ne_self v.epoch)]
    exact .replace h.coherent _ cache
  | materialize =>
    have hslots := h.of_spares Question.inducedSlots.quiet spares_inducedSlots
    have hquiet := Question.inducedSlots.quiet.unchanged v
    unfold View.materialize
    rw [ask_bind]
    cases hr : v.ask View.inducedSlots with
    | mk r u =>
      rw [hr] at hslots hquiet
      have hepoch : u.epoch = v.epoch := by rw [show u = { v with memo := u.memo } from hquiet]
      cases r with
      | error f =>
        show Tabled u cache (tableMaps v u worked cache)
        rw [h.tableMaps_eq hepoch]
        exact hslots
      | ok slots =>
        have hne : (u.replace (u.registry.writeAll slots)).epoch ≠ v.epoch := by
          show u.epoch + 1 ≠ v.epoch
          omega
        show Tabled (u.replace _) cache (tableMaps v (u.replace _) worked cache)
        rw [tableMaps_of_epoch_ne hne]
        exact .replace hslots.coherent _ cache
  | loadImports source w =>
    refine ((loadingWith_tabled v cache worked).loadImports source w ⟨Nat.le_refl _, ?_⟩).2
    rwa [h.tableMaps_eq rfl]
  | mergeImports source w =>
    refine ((loadingWith_tabled v cache worked).mergeImports source w ⟨Nat.le_refl _, ?_⟩).2
    rwa [h.tableMaps_eq rfl]
  | loadPrefixMaps web w =>
    obtain ⟨cache₁, hwithin, hrun | ⟨f, hrun⟩⟩ := loadPrefixMaps_cases web w v cache
    · rw [hrun, tableMaps_of_epoch_ne (Nat.succ_ne_self v.epoch)]
      have hne : v.memo.epoch ≠ v.advance.epoch := by
        have hle := h.coherent.notAhead
        show v.memo.epoch ≠ v.epoch + 1
        omega
      exact .fresh h.coherent.advance (recalled_eq_none hne _) cache₁
    · rw [hrun]
      unfold tableMaps
      cases hv : v.recalled Memo.namespaces with
      | none =>
        rw [if_neg (by simp)]
        exact .fresh h.coherent hv cache₁
      | some t =>
        rw [if_pos ⟨rfl, rfl⟩]
        refine ⟨h.coherent, h.within.trans hwithin, h.recalled, ?_⟩
        intro hnone
        rw [hv] at hnone
        cases hnone

/-- After an edit the table is worked out with all maps that are kept. -/
theorem History.editPrimary (h : History v cache worked) (f : Schema → Schema) :
    History (v.editPrimary f) cache cache := by
  have hstep := h.step (.editPrimary f v cache)
  rwa [tableMaps_of_epoch_ne (Nat.succ_ne_self v.epoch)] at hstep

/-- **What the remembered table was worked out with**, after any operations on a view. -/
theorem History.tabled (h : History v cache worked) : Tabled v cache worked := by
  induction h with
  | ofSchema s config cache => exact .fresh (coherent_ofSchema s config) rfl cache
  | step _ hs ih => exact hs.tabled ih

/-- Within an epoch only a load of prefix maps that fails brings new maps. -/
theorem Step.cache_eq (hs : Step v cache v' cache') (hepoch : v'.epoch = v.epoch) :
    cache' = cache ∨ Missed v cache v' cache' := by
  cases hs with
  | namespaces => exact .inl rfl
  | ask _ _ => exact .inl rfl
  | editPrimary f => exact .inl rfl
  | materialize => exact .inl rfl
  | loadImports source w => exact .inl rfl
  | mergeImports source w => exact .inl rfl
  | loadPrefixMaps web w =>
    obtain ⟨cache₁, _, hrun | ⟨f, hrun⟩⟩ := loadPrefixMaps_cases web w v cache
    · rw [hrun] at hepoch
      exact absurd hepoch (Nat.succ_ne_self v.epoch)
    · refine .inr ⟨_, web, w, ((v.loadPrefixMaps web cache).run w).2, f, ?_⟩
      rw [hrun]
      exact Prod.ext hrun rfl

/-- After timely operations the table knows every map that is kept. -/
theorem Timely.history (h : Timely v cache) : History v cache cache := by
  induction h with
  | ofSchema s config cache => exact .ofSchema s config cache
  | @step v v' cache cache' _ hs hmissed ih =>
    have hmaps : tableMaps v v' cache cache' = cache' := by
      unfold tableMaps
      split
      · rename_i hlasts
        obtain ⟨hepoch, hsome⟩ := hlasts
        rcases hs.cache_eq hepoch with he | hm
        · exact he.symm
        · rcases hmissed hm with he | hnone
          · exact he.symm
          · rw [hnone] at hsome
            cases hsome
      · rfl
    have hstep := ih.step hs
    rwa [hmaps] at hstep

/-- **The table of prefixes is up to date, but for maps that a failed load has fetched.** After any
operations the table is the one that the present documents make with the maps with which it was
worked out in this epoch. These are among those that are kept now. It fails exactly if it would fail
now, and it is what would be made now unless a map that the primary document asks for has come in
since; so always if no load of prefix maps has failed after it fetched a map while a table was
remembered. -/
theorem History.namespaces_worked (h : History v cache worked) :
    worked.Within cache ∧
      (v.ask (namespaces cache)).1 = v.registry.namespaces worked ∧
      (∀ f, (v.ask (namespaces cache)).1 = .error f ↔ v.registry.namespaces cache = .error f) ∧
      ((∀ n ∈ v.primary.defaultCuriMaps, worked.get? n = cache.get? n) →
        (v.ask (namespaces cache)).1 = v.registry.namespaces cache) ∧
      (Timely v cache → (v.ask (namespaces cache)).1 = v.registry.namespaces cache) := by
  have hanswer := h.tabled.answer
  refine ⟨h.tabled.within, hanswer, ?_, ?_, fun htimely => htimely.history.tabled.answer⟩
  · intro f
    rw [hanswer, Registry.namespaces_eq_error_iff, Registry.namespaces_eq_error_iff]
  · intro hmaps
    rw [hanswer]
    exact v.registry.namespaces_congr hmaps

/-! ### A load that fails halfway -/

/-- A web with a page for one of two prefix maps. -/
def halfWeb : Web (StateM Unit) := fun u =>
  if u.render = "http://maps.test/near.jsonld" then
    return .answered 200
      ("\x7b\"ex\": \"http://example.org/\"\x7d".toList.map fun c => c.toNat.toUInt8)
  else return .answered 404 []

/-- A view of a document that asks for both maps. -/
def unfetched : View := ofSchema { name := "p", defaultCuriMaps := ["near", "far"] }
  { registry := { url := "http://maps.test" } }

/-- The view after it was asked for its table. -/
def tabledUnfetched : View := (unfetched.ask (namespaces ∅)).2

/-- The view after a load of both maps. -/
def halfFetched : View := ((tabledUnfetched.loadPrefixMaps halfWeb ∅).run ()).1.2.2

/-- The maps that are kept then. -/
def halfMaps : PrefixCache := ((tabledUnfetched.loadPrefixMaps halfWeb ∅).run ()).1.2.1

theorem history_halfFetched : History halfFetched halfMaps ∅ := by
  have hasked : History tabledUnfetched ∅ (tableMaps unfetched tabledUnfetched ∅ ∅) :=
    .step (.ofSchema _ _ ∅) (.namespaces unfetched ∅)
  have hloaded : History halfFetched halfMaps (tableMaps tabledUnfetched halfFetched
      (tableMaps unfetched tabledUnfetched ∅ ∅) halfMaps) :=
    hasked.step (.loadPrefixMaps halfWeb () tabledUnfetched ∅)
  have hlasts : halfFetched.epoch = tabledUnfetched.epoch ∧
      (tabledUnfetched.recalled Memo.namespaces).isSome := by decide +kernel
  have hmaps : tableMaps tabledUnfetched halfFetched
      (tableMaps unfetched tabledUnfetched ∅ ∅) halfMaps = ∅ :=
    (if_pos hlasts).trans (ite_self ∅)
  rwa [hmaps] at hloaded

/-- The table is what it was before the load, and after any edit it is what it would be made. -/
theorem namespaces_worked_halfFetched :
    History halfFetched halfMaps ∅ ∧
      (halfFetched.ask (namespaces halfMaps)).1 = halfFetched.registry.namespaces ∅ ∧
      ∃ v, v = halfFetched.editPrimary id ∧ History v halfMaps halfMaps ∧
        (v.ask (namespaces halfMaps)).1 = v.registry.namespaces halfMaps ∧
        (v.registry.namespaces halfMaps).map (fun t => t.entries.get? "ex") =
          .ok (some "http://example.org/") := by
  have hedited := history_halfFetched.editPrimary id
  exact ⟨history_halfFetched, history_halfFetched.namespaces_worked.2.1, _, rfl, hedited,
    hedited.namespaces_worked.2.1, by decide +kernel⟩

/-- After a load that has fetched the first of two maps and failed at the second the table misses a
prefix of the first, which is kept and would be found if the table were made now. -/
theorem namespaces_misses_map :
    History halfFetched halfMaps ∅ ∧
      (halfFetched.ask (namespaces halfMaps)).1.map (fun t => t.entries.get? "ex") = .ok none ∧
      (halfFetched.registry.namespaces halfMaps).map (fun t => t.entries.get? "ex") =
        .ok (some "http://example.org/") ∧
      (halfFetched.ask (namespaces halfMaps)).1 ≠ halfFetched.registry.namespaces halfMaps := by
  have hex : (halfFetched.ask (namespaces halfMaps)).1.map (fun t => t.entries.get? "ex") =
        .ok none ∧
      (halfFetched.registry.namespaces halfMaps).map (fun t => t.entries.get? "ex") =
        .ok (some "http://example.org/") := by decide +kernel
  obtain ⟨hremembered, hmade⟩ := hex
  refine ⟨history_halfFetched, hremembered, hmade, ?_⟩
  intro hsame
  rw [hsame, hmade] at hremembered
  cases hremembered

end View

end SlotFrame
