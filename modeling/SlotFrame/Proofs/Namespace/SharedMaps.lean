import SlotFrame.Namespace.Registry
import SlotFrame.Proofs.Data.Tables

/-! # Calls that share the prefix maps

Fetches and preloads of prefix maps may be under way at the same time, from any registries, and
share the maps that are kept. A fetch looks for a kept map; if there is none it waits for an answer,
and keeps the map that the answer holds unless a map of that name is kept by then. However the steps
of the calls are interleaved, and whatever the answers are, a map that is kept stays, and every call
that succeeds answers the map that is kept under its name.

Main definitions: `PrefixCache.Within`, `SharedMaps.Call`, `SharedMaps.Turn`, `SharedMaps.run`.

Main statements: `SharedMaps.run_alone` (a fetch that nothing comes between is
`RegistryConfig.fetch`), `SharedMaps.Settled.run` and `SharedMaps.calls_agree`. -/

namespace SlotFrame

/-! ### Maps that stay kept -/

namespace PrefixCache

/-- The map that is kept is the one that is answered, and no other has changed. -/
theorem get?_keep (cache : PrefixCache) (name n : String) (context : PrefixMap) :
    (cache.keep name context).2.get? n =
      if n = name then some (cache.keep name context).1 else cache.get? n := by
  unfold keep
  cases h : cache.get? name with
  | some there =>
    by_cases hn : n = name
    · rw [if_pos hn, hn, h]
    · rw [if_neg hn]
  | none => exact Table.get?_insert cache name n context

/-- What one collection of maps keeps another keeps too. -/
def Within (a b : PrefixCache) : Prop := ∀ n m, a.get? n = some m → b.get? n = some m

namespace Within

variable {a b c : PrefixCache}

theorem refl (a : PrefixCache) : a.Within a := fun _ _ h => h

theorem trans (hab : a.Within b) (hbc : b.Within c) : a.Within c :=
  fun n m h => hbc n m (hab n m h)

/-- A map that is kept is never replaced. -/
theorem keep (a : PrefixCache) (name : String) (context : PrefixMap) :
    a.Within (a.keep name context).2 := by
  unfold PrefixCache.keep
  cases h : a.get? name with
  | some there => exact refl a
  | none =>
    intro n m hn
    have hne : n ≠ name := by
      rintro rfl
      rw [h] at hn
      cases hn
    rw [Table.get?_insert, if_neg hne]
    exact hn

end Within

end PrefixCache

/-! ### Calls and their steps -/

namespace SharedMaps

/-- How far a call has come. -/
inductive Stage where
  /-- A fetch that has not looked for a kept map. -/
  | begun (registry : RegistryConfig)
  /-- A fetch that has found no kept map and waits for an answer. -/
  | waiting (registry : RegistryConfig)
  /-- A map at hand, fetched or given, that is to be kept. -/
  | holding (context : PrefixMap)
  | finished (outcome : Result PrefixMap)

/-- A call for the map of one name. -/
structure Call where
  name : String
  stage : Stage

namespace Call

/-- A fetch from a registry. -/
def fetch (registry : RegistryConfig) (name : String) : Call := ⟨name, .begun registry⟩

/-- A preload of a map. -/
def preload (name : String) (context : PrefixMap) : Call := ⟨name, .holding context⟩

/-- The map that a call has answered. -/
def answer? (c : Call) : Option PrefixMap :=
  match c.stage with
  | .finished (.ok context) => some context
  | _ => none

/-- The step of a call that looks for a kept map or keeps one. -/
def go (c : Call) (cache : PrefixCache) : Call × PrefixCache :=
  match c.stage with
  | .begun registry =>
    match cache.get? c.name with
    | some there => (⟨c.name, .finished (.ok there)⟩, cache)
    | none => (⟨c.name, .waiting registry⟩, cache)
  | .holding context =>
    (⟨c.name, .finished (.ok (cache.keep c.name context).1)⟩, (cache.keep c.name context).2)
  | _ => (c, cache)

/-- The step of a call that waits and receives an answer. -/
def receive (c : Call) (answer : WebAnswer) : Call :=
  match c.stage with
  | .waiting registry =>
    match registry.mapOf c.name answer with
    | .ok context => ⟨c.name, .holding context⟩
    | .error f => ⟨c.name, .finished (.error f)⟩
  | _ => c

end Call

end SharedMaps

/-- The maps that are kept and the calls for them, in the order in which they were begun. -/
structure SharedMaps where
  cache : PrefixCache
  calls : List SharedMaps.Call

namespace SharedMaps

/-- What happens next: a call begins, or one of those that have begun makes a step. -/
inductive Turn where
  | fetch (registry : RegistryConfig) (name : String)
  | preload (name : String) (context : PrefixMap)
  | go (i : Nat)
  | receive (i : Nat) (answer : WebAnswer)

/-- Lets one of the calls make a step; there may be no such call. -/
def advance (s : SharedMaps) (i : Nat) (step : Call → PrefixCache → Call × PrefixCache) :
    SharedMaps :=
  match s.calls[i]? with
  | some c => ⟨(step c s.cache).2, s.calls.set i (step c s.cache).1⟩
  | none => s

/-- The shared maps and calls after one turn. -/
def turn (s : SharedMaps) : Turn → SharedMaps
  | .fetch registry name => ⟨s.cache, s.calls ++ [.fetch registry name]⟩
  | .preload name context => ⟨s.cache, s.calls ++ [.preload name context]⟩
  | .go i => s.advance i Call.go
  | .receive i answer => s.advance i fun c cache => (c.receive answer, cache)

/-- The shared maps and calls after some turns, whichever calls they are given to. -/
def run (s : SharedMaps) (turns : List Turn) : SharedMaps := turns.foldl turn s

/-- Kept maps before any call has begun. -/
def start (cache : PrefixCache) : SharedMaps := ⟨cache, []⟩

/-- A call for a name has succeeded with a map. -/
def Answered (s : SharedMaps) (name : String) (context : PrefixMap) : Prop :=
  ∃ c ∈ s.calls, c.name = name ∧ c.answer? = some context

/-! ### A fetch that is alone -/

section Alone

variable (s : SharedMaps) (registry : RegistryConfig) (name : String)

/-- The call that has begun last makes a step. -/
theorem advance_last (cache : PrefixCache) (calls : List Call) (c : Call)
    (step : Call → PrefixCache → Call × PrefixCache) :
    advance ⟨cache, calls ++ [c]⟩ calls.length step =
      ⟨(step c cache).2, calls ++ [(step c cache).1]⟩ := by
  unfold advance
  dsimp only
  rw [List.getElem?_concat_length]
  dsimp only
  rw [List.set_append_right _ _ (Nat.le_refl _), Nat.sub_self, List.set_cons_zero]

/-- A fetch whose steps no other call comes between answers and keeps what it does as a whole. -/
theorem run_alone {W : Type} (web : Web (StateM W)) (w : W) :
    s.run [.fetch registry name, .go s.calls.length,
        .receive s.calls.length ((web.send (Web.readTarget (registry.urlFor name))).run w).1,
        .go s.calls.length] =
      ⟨((registry.fetch web name s.cache).run w).1.2,
        s.calls ++ [⟨name, .finished ((registry.fetch web name s.cache).run w).1.1⟩]⟩ := by
  show advance (advance (advance ⟨s.cache, s.calls ++ [.fetch registry name]⟩ _ _) _ _) _ _ = _
  rw [advance_last, advance_last, advance_last]
  unfold RegistryConfig.fetch Call.go Call.fetch
  dsimp only
  cases s.cache.get? name with
  | some there => rfl
  | none =>
    rw [StateT.run_bind]
    cases (web.send (Web.readTarget (registry.urlFor name))).run w with
    | mk answer w' =>
      unfold Call.receive
      rw [show (answer, w') = (pure (answer, w') : Id (WebAnswer × W)) from rfl, pure_bind]
      dsimp only
      cases registry.mapOf name answer <;> rfl

end Alone

/-! ### One step of one call -/

/-- What any step of a call does to the maps that are kept: it changes none of them, answers only
what is kept, and keeps nothing that it does not answer. -/
structure Advances (cache : PrefixCache) (c : Call) (c' : Call × PrefixCache) : Prop where
  name : c'.1.name = c.name
  finished : ∀ context, c.answer? = some context → c'.1.answer? = some context
  within : cache.Within c'.2
  answered : ∀ context, c'.1.answer? = some context →
    c.answer? = some context ∨ c'.2.get? c.name = some context
  kept : ∀ n context, c'.2.get? n = some context →
    cache.get? n = some context ∨ (n = c.name ∧ c'.1.answer? = some context)

namespace Advances

variable {cache : PrefixCache} {c c' : Call}

/-- A step that leaves the maps as they are and answers none. -/
theorem silent (hname : c'.name = c.name) (hc : c.answer? = none) (hc' : c'.answer? = none) :
    Advances cache c (c', cache) where
  name := hname
  finished context h := by
    rw [hc] at h
    cases h
  within := .refl cache
  answered context h := by
    rw [hc'] at h
    cases h
  kept n context h := .inl h

theorem refl (cache : PrefixCache) (c : Call) : Advances cache c (c, cache) where
  name := rfl
  finished _ h := h
  within := .refl cache
  answered _ h := .inl h
  kept _ _ h := .inl h

end Advances

theorem advances_go (c : Call) (cache : PrefixCache) : Advances cache c (c.go cache) := by
  obtain ⟨name, stage⟩ := c
  cases stage with
  | begun registry =>
    unfold Call.go
    dsimp only
    cases h : cache.get? name with
    | none => exact .silent rfl rfl rfl
    | some there =>
      refine ⟨rfl, nofun, .refl cache, ?_, fun _ _ hn => .inl hn⟩
      intro context hcontext
      cases hcontext
      exact .inr h
  | waiting registry => exact .refl cache _
  | holding context =>
    refine ⟨rfl, nofun, .keep cache name context, ?_, ?_⟩
    · intro kept hkept
      cases hkept
      exact .inr ((PrefixCache.get?_keep cache name name context).trans (if_pos rfl))
    · intro n kept hkept
      rw [show (Call.go ⟨name, .holding context⟩ cache).2 = (cache.keep name context).2 from rfl,
        PrefixCache.get?_keep] at hkept
      by_cases hn : n = name
      · rw [if_pos hn] at hkept
        exact .inr ⟨hn, hkept⟩
      · rw [if_neg hn] at hkept
        exact .inl hkept
  | finished outcome => exact .refl cache _

theorem advances_receive (c : Call) (answer : WebAnswer) (cache : PrefixCache) :
    Advances cache c (c.receive answer, cache) := by
  obtain ⟨name, stage⟩ := c
  cases stage with
  | waiting registry =>
    unfold Call.receive
    dsimp only
    cases registry.mapOf name answer with
    | ok context => exact .silent rfl rfl rfl
    | error f => exact .silent rfl rfl rfl
  | begun registry => exact .refl cache _
  | holding context => exact .refl cache _
  | finished outcome => exact .refl cache _

/-! ### Runs -/

section Runs

variable {initial : PrefixCache} {s s' : SharedMaps}
  {step : Call → PrefixCache → Call × PrefixCache}

/-- What becomes of kept maps and answers: they stay. -/
structure Grows (s s' : SharedMaps) : Prop where
  within : s.cache.Within s'.cache
  answered : ∀ name context, s.Answered name context → s'.Answered name context

theorem Grows.refl (s : SharedMaps) : Grows s s where
  within := .refl s.cache
  answered _ _ h := h

theorem Grows.trans {s₂ : SharedMaps} (h : Grows s s') (h' : Grows s' s₂) : Grows s s₂ where
  within := h.within.trans h'.within
  answered name context ha := h'.answered name context (h.answered name context ha)

/-- Exactly those maps are kept that were kept at first or that a call has answered. -/
def Settled (initial : PrefixCache) (s : SharedMaps) : Prop :=
  ∀ name context, s.cache.get? name = some context ↔
    initial.get? name = some context ∨ s.Answered name context

theorem settled_start (cache : PrefixCache) : Settled cache (start cache) := by
  intro name context
  refine ⟨.inl, ?_⟩
  rintro (h | ⟨c, hc, _⟩)
  · exact h
  · cases hc

/-- A call that begins with no answer changes no answers. -/
theorem answered_append {c : Call} (hc : c.answer? = none) (name : String) (context : PrefixMap) :
    Answered ⟨s.cache, s.calls ++ [c]⟩ name context ↔ s.Answered name context := by
  constructor
  · rintro ⟨d, hd, hname, hanswer⟩
    rcases List.mem_append.1 hd with hd | hd
    · exact ⟨d, hd, hname, hanswer⟩
    · rw [List.mem_singleton.1 hd, hc] at hanswer
      cases hanswer
  · rintro ⟨d, hd, hanswer⟩
    exact ⟨d, List.mem_append_left _ hd, hanswer⟩

/-- What is answered once a call has made a step. -/
theorem answered_set {i : Nat} {c : Call} {c' : Call × PrefixCache} (hi : s.calls[i]? = some c)
    (h : Advances s.cache c c') (name : String) (context : PrefixMap) :
    Answered ⟨c'.2, s.calls.set i c'.1⟩ name context ↔
      s.Answered name context ∨ (c.name = name ∧ c'.1.answer? = some context) := by
  have hlength : i < s.calls.length := (List.getElem?_eq_some_iff.1 hi).1
  constructor
  · rintro ⟨d, hd, hname, hanswer⟩
    rcases List.mem_or_eq_of_mem_set hd with hd | rfl
    · exact .inl ⟨d, hd, hname, hanswer⟩
    · exact .inr ⟨h.name.symm.trans hname, hanswer⟩
  · rintro (⟨d, hd, hname, hanswer⟩ | ⟨hname, hanswer⟩)
    · obtain ⟨j, hj⟩ := List.mem_iff_getElem?.1 hd
      by_cases hij : i = j
      · -- The call itself keeps the answer that it has.
        subst hij
        cases hi.symm.trans hj
        exact ⟨c'.1, List.mem_set hlength _, h.name.trans hname, h.finished context hanswer⟩
      · have hd' : (s.calls.set i c'.1)[j]? = some d := by rw [List.getElem?_set_ne hij, hj]
        exact ⟨d, List.mem_of_getElem? hd', hname, hanswer⟩
    · exact ⟨c'.1, List.mem_set hlength _, h.name.trans hname, hanswer⟩

theorem Grows.advance (s : SharedMaps) (i : Nat)
    (h : ∀ c cache, Advances cache c (step c cache)) : Grows s (s.advance i step) := by
  unfold SharedMaps.advance
  cases hi : s.calls[i]? with
  | none => exact .refl s
  | some c =>
    have hc := h c s.cache
    exact ⟨hc.within, fun name context ha => (answered_set hi hc name context).2 (.inl ha)⟩

/-- One step of a call: what it answers it finds kept, and what it keeps it answers. -/
theorem Settled.advance (hs : Settled initial s) (i : Nat)
    (h : ∀ c cache, Advances cache c (step c cache)) : Settled initial (s.advance i step) := by
  unfold SharedMaps.advance
  cases hi : s.calls[i]? with
  | none => exact hs
  | some c =>
    have hc := h c s.cache
    intro name context
    rw [answered_set hi hc, ← or_assoc, ← hs name context]
    constructor
    · intro hkept
      refine (hc.kept name context hkept).imp id ?_
      rintro ⟨rfl, hanswer⟩
      exact ⟨rfl, hanswer⟩
    · rintro (hkept | ⟨rfl, hanswer⟩)
      · exact hc.within name context hkept
      · rcases hc.answered context hanswer with hbefore | hkept
        · have hmem : s.Answered c.name context := ⟨c, List.mem_of_getElem? hi, rfl, hbefore⟩
          exact hc.within c.name context ((hs c.name context).2 (.inr hmem))
        · exact hkept

theorem Grows.turn (s : SharedMaps) (t : Turn) : Grows s (s.turn t) := by
  cases t with
  | fetch registry name =>
    exact ⟨.refl s.cache, fun name context => (answered_append rfl name context).2⟩
  | preload name context =>
    exact ⟨.refl s.cache, fun name context => (answered_append rfl name context).2⟩
  | go i => exact .advance s i advances_go
  | receive i answer => exact .advance s i fun c => advances_receive c answer

theorem Settled.turn (hs : Settled initial s) (t : Turn) : Settled initial (s.turn t) := by
  have hbegun : ∀ c : Call, c.answer? = none → Settled initial ⟨s.cache, s.calls ++ [c]⟩ := by
    intro c hc name context
    rw [answered_append hc]
    exact hs name context
  cases t with
  | fetch registry name => exact hbegun _ rfl
  | preload name context => exact hbegun _ rfl
  | go i => exact hs.advance i advances_go
  | receive i answer => exact hs.advance i fun c => advances_receive c answer

theorem Grows.run (s : SharedMaps) (turns : List Turn) : Grows s (s.run turns) := by
  induction turns generalizing s with
  | nil => exact .refl s
  | cons t turns ih => exact (Grows.turn s t).trans (ih (s.turn t))

theorem Settled.run (hs : Settled initial s) (turns : List Turn) :
    Settled initial (s.run turns) := by
  induction turns generalizing s with
  | nil => exact hs
  | cons t turns ih => exact ih (hs.turn t)

end Runs

/-- **Calls for one name agree.** Whatever maps are kept at first, however the steps of any calls
are interleaved, and whatever the answers are: a map that is kept stays kept; all calls for one name
that succeed, then or later, answer one map; and the maps that are kept are those that were kept at
first and those that the calls have answered. -/
theorem calls_agree (initial : PrefixCache) (before later : List Turn) :
    (∀ name context, ((start initial).run before).cache.get? name = some context →
      ((start initial).run (before ++ later)).cache.get? name = some context) ∧
    (∀ name context context', ((start initial).run before).Answered name context →
      ((start initial).run (before ++ later)).Answered name context' → context = context') ∧
    ∀ name context, ((start initial).run (before ++ later)).cache.get? name = some context ↔
      initial.get? name = some context ∨
        ((start initial).run (before ++ later)).Answered name context := by
  have hsplit : (start initial).run (before ++ later) = ((start initial).run before).run later :=
    List.foldl_append
  have hgrows := Grows.run ((start initial).run before) later
  have hsettled : Settled initial ((start initial).run (before ++ later)) :=
    (settled_start initial).run _
  rw [hsplit] at hsettled ⊢
  refine ⟨hgrows.within, ?_, hsettled⟩
  intro name context context' h h'
  have hkept := (hsettled name context).2 (.inr (hgrows.answered name context h))
  have hkept' := (hsettled name context').2 (.inr h')
  exact Option.some.inj (hkept.symm.trans hkept')

/-- A page that maps one prefix. -/
def page (uri : String) : WebAnswer :=
  .answered 200 (("\x7b\"ex\": \"" ++ uri ++ "\"\x7d").toList.map fun c => c.toNat.toUInt8)

/-- Fetches of one map from three registries, none of which finds it kept. The second is answered
first, then the first, and the third not at all; the second keeps its map before the first does, and
a preload comes too late. -/
def race : List Turn :=
  [.fetch { url := "http://near.test" } "m", .fetch { url := "http://far.test" } "m",
    .fetch { url := "http://down.test" } "m", .go 0, .go 1, .go 2,
    .receive 1 (page "http://far.org/"), .receive 0 (page "http://near.org/"),
    .receive 2 (.answered 503 []), .go 1, .preload "m" ∅, .go 0, .go 3]

/-- A fetch that comes later. -/
def afterRace : List Turn := [.fetch { url := "http://down.test" } "m", .go 4]

/-- The namespace of the prefix that all these maps map. -/
def exUri? (context : PrefixMap) : Option String := (context.get? "ex").bind contextUri?

/-- The map that was kept first is what every call answers, but for the one whose registry gave
none. -/
theorem calls_agree_race :
    ((start ∅).run race).calls.map (fun c => c.answer?.bind exUri?) =
        [some "http://far.org/", some "http://far.org/", none, some "http://far.org/"] ∧
      ∃ context, exUri? context = some "http://far.org/" ∧
        ((start ∅).run race).Answered "m" context ∧
        ((start ∅).run (race ++ afterRace)).cache.get? "m" = some context ∧
        ∀ later, ((start ∅).run (race ++ afterRace)).Answered "m" later → context = later := by
  have huri : (((start ∅).run race).cache.get? "m").bind exUri? = some "http://far.org/" := by
    decide +kernel
  obtain ⟨context, hkept, hex⟩ := Option.bind_eq_some_iff.1 huri
  obtain ⟨_, _, hsettled⟩ := calls_agree ∅ [] race
  obtain ⟨hstays, hagree, _⟩ := calls_agree ∅ race afterRace
  have hanswered : ((start ∅).run race).Answered "m" context :=
    ((hsettled "m" context).1 hkept).resolve_left nofun
  exact ⟨by decide +kernel, context, hex, hanswered, hstays "m" context hkept,
    fun later => hagree "m" context later hanswered⟩

end SharedMaps

end SlotFrame
