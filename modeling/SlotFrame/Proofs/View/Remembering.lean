import SlotFrame.Proofs.View.Reachable

/-! # What a view remembers is what it would work out

A memo is faithful to a registry if every answer in it is the one that the registry gives. A view is
coherent if its memo is not ahead of it and, where it belongs to the view's epoch, faithful. Every
change of a registry begins an epoch in which nothing is recalled, so coherence is stable, and a
coherent view answers as if it remembered nothing.

Main statements: `View.Reachable.coherent`, `View.answers_inducedSlot` and its companions for the
other questions, `View.Answers.eq_forget`. -/

namespace SlotFrame

/-- A memo whose answers are those of a registry. -/
structure Memo.Faithful (m : Memo) (r : Registry) : Prop where
  slots : ∀ name className s, m.slots.lookup (name, className) = some s →
    r.inducedSlot name className = .ok s
  types : ∀ name t, m.types.get? name = some t → r.inducedType name = .ok t
  classes : ∀ name c, m.classes.get? name = some c → r.inducedClass name = .ok c
  owners : ∀ t, m.owners = some t → t = r.elementOwners
  /-- A table of prefixes was built with the prefix maps that were kept at the time. -/
  namespaces : ∀ t, m.namespaces = some t → ∃ cache, r.namespaces cache = .ok t

theorem Memo.faithful_empty (epoch : Nat) (r : Registry) : Memo.Faithful { epoch } r where
  slots _ _ _ h := by cases h
  types _ _ h := by cases h
  classes _ _ h := by cases h
  owners _ h := by cases h
  namespaces _ h := by cases h

namespace View

/-- A view whose memo, as far as it is recalled, is faithful. -/
structure Coherent (v : View) : Prop where
  notAhead : v.memo.epoch ≤ v.epoch
  faithful : v.memo.epoch = v.epoch → v.memo.Faithful v.registry

/-- The view that remembers nothing. -/
def forget (v : View) : View := { v with memo := { epoch := v.epoch } }

theorem coherent_ofSchema (s : Schema) (config : Config) : (ofSchema s config).Coherent :=
  ⟨Nat.le_refl 0, fun _ => Memo.faithful_empty 0 _⟩

theorem coherent_forget (v : View) : v.forget.Coherent :=
  ⟨Nat.le_refl v.epoch, fun _ => Memo.faithful_empty v.epoch v.registry⟩

theorem Coherent.advance {v : View} (hv : v.Coherent) : v.advance.Coherent := by
  have hle : v.memo.epoch ≤ v.epoch := hv.notAhead
  refine ⟨Nat.le_succ_of_le hle, ?_⟩
  intro h
  have hnew : v.memo.epoch = v.epoch + 1 := h
  omega

/-- A new epoch recalls nothing, whatever its registry is. -/
theorem Coherent.replace {v : View} (hv : v.Coherent) (r : Registry) : (v.replace r).Coherent := by
  have hle : v.memo.epoch ≤ v.epoch := hv.notAhead
  refine ⟨Nat.le_succ_of_le hle, ?_⟩
  intro h
  have hnew : v.memo.epoch = v.epoch + 1 := h
  omega

theorem Coherent.faithful_sync {v : View} (hv : v.Coherent) :
    (v.memo.sync v.epoch).Faithful v.registry := by
  unfold Memo.sync
  split
  · rename_i h
    exact hv.faithful h
  · exact Memo.faithful_empty v.epoch v.registry

@[simp] theorem epoch_sync (m : Memo) (epoch : Nat) : (m.sync epoch).epoch = epoch := by
  unfold Memo.sync
  split
  · assumption
  · rfl

/-- What is kept of a faithful memo keeps the view coherent. -/
theorem Coherent.keep {v : View} (write : Memo → Memo)
    (hepoch : (write (v.memo.sync v.epoch)).epoch = v.epoch)
    (hw : (write (v.memo.sync v.epoch)).Faithful v.registry) : (v.keep write).Coherent := by
  refine ⟨?_, fun _ => hw⟩
  show (write (v.memo.sync v.epoch)).epoch ≤ v.epoch
  exact Nat.le_of_eq hepoch

theorem Coherent.faithful_of_recalled {v : View} (hv : v.Coherent) {α : Type}
    {read : Memo → Option α} {a : α} (h : v.recalled read = some a) :
    v.memo.Faithful v.registry ∧ read v.memo = some a := by
  unfold recalled at h
  split at h
  · rename_i he
    exact ⟨hv.faithful he, h⟩
  · cases h

/-- What is recalled was remembered in this epoch. -/
theorem recalled_eq_none {α : Type} {v : View} (h : v.memo.epoch ≠ v.epoch)
    (read : Memo → Option α) : v.recalled read = none := if_neg h

/-- A new epoch recalls nothing. -/
theorem recalled_replace {α : Type} {v : View} (h : v.memo.epoch ≤ v.epoch) (r : Registry)
    (read : Memo → Option α) : (v.replace r).recalled read = none := by
  apply recalled_eq_none
  show v.memo.epoch ≠ v.epoch + 1
  omega

/-! ### Questions that answer as the registry does -/

variable {α β : Type}

/-- A question that changes nothing but what is remembered, and keeps that coherent. -/
structure Quiet (q : Asking α) : Prop where
  coherent {v : View} (hv : v.Coherent) : (v.ask q).2.Coherent
  unchanged (v : View) : (v.ask q).2 = { v with memo := (v.ask q).2.memo }

/-- A quiet question that a coherent view answers as its registry does. -/
structure Answers (q : Asking α) (f : Registry → Result α) : Prop extends Quiet q where
  answer {v : View} (hv : v.Coherent) : (v.ask q).1 = f v.registry

theorem Quiet.registry {q : Asking α} (hq : Quiet q) (v : View) :
    (v.ask q).2.registry = v.registry := by
  rw [hq.unchanged v]

theorem Answers.pure (a : α) : Answers (Pure.pure a) fun _ => .ok a where
  coherent hv := hv
  unchanged _ := rfl
  answer _ := rfl

theorem Answers.throw (fault : Fault) :
    Answers (MonadExcept.throw fault : Asking α) fun _ => .error fault where
  coherent hv := hv
  unchanged _ := rfl
  answer _ := rfl

theorem Answers.ofRegistry (f : Registry → Result α) : Answers (View.ofRegistry f) f where
  coherent {v} hv := by
    rw [ask_ofRegistry]
    exact hv
  unchanged v := by rw [ask_ofRegistry]
  answer {v} _ := by rw [ask_ofRegistry]

theorem Quiet.bind {q : Asking α} {k : α → Asking β} (hq : Quiet q) (hk : ∀ a, Quiet (k a)) :
    Quiet (q >>= k) where
  coherent {v} hv := by
    have hv' := hq.coherent hv
    rw [ask_bind]
    cases h : v.ask q with
    | mk r v' =>
      rw [h] at hv'
      cases r with
      | ok a => exact (hk a).coherent hv'
      | error f => exact hv'
  unchanged v := by
    have hu := hq.unchanged v
    rw [ask_bind]
    cases h : v.ask q with
    | mk r v' =>
      rw [h] at hu
      have hu' : v' = { v with memo := v'.memo } := hu
      cases r with
      | ok a =>
        show (v'.ask (k a)).2 = { v with memo := (v'.ask (k a)).2.memo }
        rw [(hk a).unchanged v', hu']
      | error f => exact hu'

theorem Answers.bind {q : Asking α} {f : Registry → Result α} {k : α → Asking β}
    {g : α → Registry → Result β} (hq : Answers q f) (hk : ∀ a, Answers (k a) (g a)) :
    Answers (q >>= k) fun r => f r >>= fun a => g a r where
  toQuiet := hq.toQuiet.bind fun a => (hk a).toQuiet
  answer {v} hv := by
    have ha := hq.answer hv
    have hv' := hq.coherent hv
    have hr := hq.registry v
    rw [ask_bind]
    cases h : v.ask q with
    | mk r v' =>
      rw [h] at ha hv' hr
      have hf : f v.registry = r := ha.symm
      rw [hf]
      cases r with
      | ok a =>
        show (v'.ask (k a)).1 = g a v.registry
        rw [(hk a).answer hv', show v'.registry = v.registry from hr]
      | error e => rfl

theorem Answers.map {q : Asking α} {f : Registry → Result α} (hq : Answers q f) (g : α → β) :
    Answers (do return g (← q)) fun r => (f r).map g := by
  have h : (fun r => (f r).map g) = fun r => f r >>= fun a => .ok (g a) := by
    funext r
    cases f r <;> rfl
  rw [h]
  exact hq.bind fun a => Answers.pure (g a)

/-- A question that looks at the registry and becomes one that is known to answer. -/
theorem Answers.look {q : Asking α} {f : Registry → Result α}
    (h : ∀ v : View, ∃ k g, Answers k g ∧ v.ask q = v.ask k ∧ f v.registry = g v.registry) :
    Answers q f where
  coherent {v} hv := by
    obtain ⟨k, g, hk, hask, _⟩ := h v
    rw [hask]
    exact hk.coherent hv
  unchanged v := by
    obtain ⟨k, g, hk, hask, _⟩ := h v
    rw [hask]
    exact hk.unchanged v
  answer {v} hv := by
    obtain ⟨k, g, hk, hask, hf⟩ := h v
    rw [hask, hf]
    exact hk.answer hv

theorem Answers.mapM {q : α → Asking β} {f : α → Registry → Result β}
    (hq : ∀ a, Answers (q a) (f a)) (xs : List α) :
    Answers (xs.mapM q) fun r => xs.mapM fun a => f a r := by
  induction xs with
  | nil => exact Answers.pure []
  | cons x xs ih =>
    simp only [List.mapM_cons]
    exact (hq x).bind fun b => ih.bind fun bs => Answers.pure (b :: bs)

theorem Quiet.remember {read : Memo → Option α} {write : α → Memo → Memo} {work : Asking α}
    (hwork : Quiet work)
    (hkeep : ∀ {v v' : View} {a}, v.Coherent → v.ask work = (.ok a, v') →
      (v'.keep (write a)).Coherent) : Quiet (View.remember read write work) where
  coherent {v} hv := by
    have hv' := hwork.coherent hv
    rw [ask_remember]
    cases v.recalled read with
    | some a => exact hv
    | none =>
      cases h : v.ask work with
      | mk r v' =>
        rw [h] at hv'
        cases r with
        | ok a => exact hkeep hv h
        | error e => exact hv'
  unchanged v := by
    have hu := hwork.unchanged v
    rw [ask_remember]
    cases v.recalled read with
    | some a => rfl
    | none =>
      cases h : v.ask work with
      | mk r v' =>
        rw [h] at hu
        have hu' : v' = { v with memo := v'.memo } := hu
        cases r with
        | error e => exact hu'
        | ok a =>
          rw [hu']
          rfl

/-- Recalling spares work: what is recalled is right, and what is kept stays so. -/
theorem Answers.remember {read : Memo → Option α} {write : α → Memo → Memo} {work : Asking α}
    {f : Registry → Result α} (hwork : Answers work f)
    (hread : ∀ {m : Memo} {r : Registry} {a}, m.Faithful r → read m = some a → f r = .ok a)
    (hepoch : ∀ a m, (write a m).epoch = m.epoch)
    (hwrite : ∀ {m : Memo} {r : Registry} {a}, m.Faithful r → f r = .ok a →
      (write a m).Faithful r) :
    Answers (View.remember read write work) f where
  toQuiet := by
    refine hwork.toQuiet.remember ?_
    intro v v' a hv h
    have ha : (v.ask work).1 = f v.registry := hwork.answer hv
    have hv' : (v.ask work).2.Coherent := hwork.coherent hv
    have hr : (v.ask work).2.registry = v.registry := hwork.registry v
    rw [h] at ha hv' hr
    have hf : f v'.registry = .ok a := by
      rw [show v'.registry = v.registry from hr]
      exact ha.symm
    exact Coherent.keep (write a) ((hepoch a _).trans (epoch_sync _ _))
      (hwrite hv'.faithful_sync hf)
  answer {v} hv := by
    have ha := hwork.answer hv
    rw [ask_remember]
    cases hrec : v.recalled read with
    | some a =>
      obtain ⟨hfaithful, hm⟩ := hv.faithful_of_recalled hrec
      exact (hread hfaithful hm).symm
    | none =>
      cases h : v.ask work with
      | mk r v' =>
        rw [h] at ha
        cases r with
        | error e => exact ha
        | ok a => exact ha

/-! ### Each question -/

theorem answers_inducedSlot (name : String) (className : Option String) :
    Answers (inducedSlot name className) fun r => r.inducedSlot name className := by
  refine Answers.remember (Answers.ofRegistry _) ?_ (fun _ _ => rfl) ?_
  · intro m r s hm h
    exact hm.slots name className s h
  · intro m r s hm hs
    refine { hm with slots := ?_ }
    intro name' className' s' h
    rw [List.lookup_cons] at h
    cases hkey : ((name', className') == (name, className)) with
    | true =>
      have he : (name', className') = (name, className) := by simpa using hkey
      cases he
      simp only [hkey, Option.some.injEq] at h
      rw [hs, h]
    | false =>
      simp only [hkey] at h
      exact hm.slots name' className' s' h

theorem answers_inducedType (name : String) :
    Answers (inducedType name) fun r => r.inducedType name := by
  refine Answers.remember (Answers.ofRegistry _) ?_ (fun _ _ => rfl) ?_
  · intro m r t hm h
    exact hm.types name t h
  · intro m r t hm ht
    refine { hm with types := ?_ }
    intro name' t' h
    rw [Table.get?_insert] at h
    split at h
    · rename_i he
      rw [he, ht]
      exact congrArg Except.ok (Option.some.inj h)
    · exact hm.types name' t' h

theorem answers_classInducedSlots (className : String) :
    Answers (classInducedSlots className) fun r => r.classInducedSlots className :=
  (Answers.ofRegistry _).bind fun names =>
    Answers.mapM (fun n => answers_inducedSlot n (some className)) names

theorem answers_deriveClass (className : String) :
    Answers (deriveClass className) fun r => r.inducedClass className := by
  apply Answers.look
  intro v
  unfold deriveClass Registry.inducedClass
  rw [ask_bind, ask_get]
  dsimp only
  cases v.registry.class? className with
  | some c =>
    exact ⟨_, _, (answers_classInducedSlots className).map (Registry.withInduced c), rfl, rfl⟩
  | none => exact ⟨_, _, Answers.throw (.unresolved .classDef className none), rfl, rfl⟩

theorem answers_inducedClass (className : String) :
    Answers (inducedClass className) fun r => r.inducedClass className := by
  refine Answers.remember (answers_deriveClass className) ?_ (fun _ _ => rfl) ?_
  · intro m r c hm h
    exact hm.classes className c h
  · intro m r c hm hc
    refine { hm with classes := ?_ }
    intro name' c' h
    rw [Table.get?_insert] at h
    split at h
    · rename_i he
      rw [he, hc]
      exact congrArg Except.ok (Option.some.inj h)
    · exact hm.classes name' c' h

theorem answers_identifierSlot (className : String) :
    Answers (identifierSlot className) fun r => r.identifierSlot className :=
  (answers_classInducedSlots className).map _

theorem answers_elementOwners : Answers elementOwners fun r => .ok r.elementOwners := by
  refine Answers.remember (Answers.ofRegistry _) ?_ (fun _ _ => rfl) ?_
  · intro m r t hm h
    rw [hm.owners t h]
  · intro m r t hm ht
    refine { hm with owners := ?_ }
    intro t' h
    cases h
    exact (Except.ok.inj ht).symm

theorem answers_ownerOf (element : String) :
    Answers (ownerOf element) fun r => .ok (r.elementOwners.get? element) :=
  answers_elementOwners.map _

theorem answers_inducedSlots : Answers inducedSlots fun r => r.inducedSlots := by
  apply Answers.look
  intro v
  exact ⟨_, _, Answers.mapM (fun n => (answers_classInducedSlots n).map fun slots => (n, slots))
    (v.registry.classes true).keys, rfl, rfl⟩

/-- A table of prefixes that is kept concerns no other answer. -/
theorem quiet_namespaces (cache : PrefixCache) : Quiet (namespaces cache) := by
  refine (Answers.ofRegistry fun r => r.namespaces cache).toQuiet.remember ?_
  intro v v' t hv h
  rw [ask_ofRegistry] at h
  obtain ⟨hr, rfl⟩ := Prod.mk.inj h
  refine Coherent.keep _ (epoch_sync _ _) { hv.faithful_sync with namespaces := ?_ }
  intro t ht
  cases ht
  exact ⟨cache, hr⟩

theorem ask_namespaces (v : View) (cache : PrefixCache) :
    v.ask (namespaces cache) = match v.recalled Memo.namespaces with
      | some t => (.ok t, v)
      | none => match v.registry.namespaces cache with
        | .ok t => (.ok t, v.keep fun m => { m with namespaces := some t })
        | .error f => (.error f, v) := by
  unfold namespaces
  rw [ask_remember, ask_ofRegistry]
  cases v.recalled Memo.namespaces with
  | some t => rfl
  | none => cases v.registry.namespaces cache <;> rfl

/-- A view that remembers no table of prefixes answers as its registry does. -/
theorem ask_namespaces_of_recalled_none {v : View} (h : v.recalled Memo.namespaces = none)
    (cache : PrefixCache) : (v.ask (namespaces cache)).1 = v.registry.namespaces cache := by
  rw [ask_namespaces, h]
  dsimp only
  cases v.registry.namespaces cache <;> rfl

theorem Question.quiet {q : Asking α} (hq : Question q) : Quiet q := by
  cases hq with
  | inducedSlot name className => exact (answers_inducedSlot name className).toQuiet
  | inducedType name => exact (answers_inducedType name).toQuiet
  | classInducedSlots className => exact (answers_classInducedSlots className).toQuiet
  | inducedClass className => exact (answers_inducedClass className).toQuiet
  | identifierSlot className => exact (answers_identifierSlot className).toQuiet
  | inducedSlots => exact answers_inducedSlots.toQuiet
  | elementOwners => exact answers_elementOwners.toQuiet
  | ownerOf element => exact (answers_ownerOf element).toQuiet
  | namespaces cache => exact quiet_namespaces cache

/-! ### Whole histories -/

/-- Every change of a view leaves it coherent: questions are quiet, and all else begins a new
epoch. -/
theorem stable_coherent : Stable Coherent where
  ask hq _ hv := hq.quiet.coherent hv
  editPrimary _ _ hv := hv.replace _
  writeAll _ _ hv := hv.replace _
  insert _ _ _ hv := hv.replace _
  tagDocuments {v} hv := by
    have h := hv.replace (v.registry.mapDocuments fun d => d.tagProvenance d.identity)
    exact ⟨h.notAhead, h.faithful⟩
  flatten hv := hv.replace _
  advance hv := hv.advance

theorem Reachable.coherent {v : View} (hv : v.Reachable) : v.Coherent :=
  hv.induct stable_coherent coherent_ofSchema

/-- Whatever has happened to a view, its answers are those of a view that remembers nothing. -/
theorem Answers.eq_forget {q : Asking α} {f : Registry → Result α} (hq : Answers q f) {v : View}
    (hv : v.Reachable) :
    (v.ask q).1 = (v.forget.ask q).1 ∧ (v.ask q).1 = f v.registry := by
  have hanswer : (v.ask q).1 = f v.registry := hq.answer hv.coherent
  have hforget : (v.forget.ask q).1 = f v.registry := hq.answer v.coherent_forget
  exact ⟨hanswer.trans hforget.symm, hanswer⟩

/-- **No answer is stale.** After any finite sequence of operations a view answers every question
about induced definitions and owners as it would from its present documents with nothing
remembered. -/
theorem Reachable.answers_afresh {v : View} (hv : v.Reachable) :
    (∀ name className, (v.ask (inducedSlot name className)).1 =
      (v.forget.ask (inducedSlot name className)).1) ∧
    (∀ name, (v.ask (inducedType name)).1 = (v.forget.ask (inducedType name)).1) ∧
    (∀ className, (v.ask (inducedClass className)).1 =
      (v.forget.ask (inducedClass className)).1) ∧
    (v.ask elementOwners).1 = (v.forget.ask elementOwners).1 ∧
    ∀ element, (v.ask (ownerOf element)).1 = (v.forget.ask (ownerOf element)).1 :=
  ⟨fun name className => ((answers_inducedSlot name className).eq_forget hv).1,
    fun name => ((answers_inducedType name).eq_forget hv).1,
    fun className => ((answers_inducedClass className).eq_forget hv).1,
    (answers_elementOwners.eq_forget hv).1,
    fun element => ((answers_ownerOf element).eq_forget hv).1⟩

/-- A slot that was asked for and then removed is not recalled. -/
theorem answers_afresh_after_edit :
    let s : Schema := { name := "s", slots := Table.ofList [("a", { name := "a" })] }
    let v := ((ofSchema s {}).ask (inducedSlot "a" none)).2.editPrimary
      fun d => { d with slots := ∅ }
    v.Reachable ∧ (v.ask (inducedSlot "a" none)).1 = .error (.unresolved .slotDef "a" none) ∧
      (v.ask (inducedSlot "a" none)).1 = (v.forget.ask (inducedSlot "a" none)).1 := by
  intro s v
  have hv : v.Reachable :=
    .editPrimary _ (.ask (.inducedSlot "a" none) (.ofSchema s {}))
  exact ⟨hv, rfl, hv.answers_afresh.1 "a" none⟩

end View

end SlotFrame
