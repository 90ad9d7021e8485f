import SlotFrame.Proofs.Namespace.Contraction

/-! # What operations leave of a table

Operations that write to a table one after the other, and in part by way of each other, may fail in
the middle. None of them does so after it has written anything, and the addition of a prefix map
fails nowhere: what it writes by way of others it has looked at before. A prefix that has been
mapped keeps its namespace and its place among the prefixes for ever; a reserved name keeps its
namespace until it is cleared.

Main definitions: `Namespaces.Operation`, `Namespaces.Operation.run`, `Namespaces.after`.

Main statements: `Namespaces.Operation.run_eq` (what is done step by step is what the table
operations say) and `Namespaces.operations_settle`. -/

namespace SlotFrame

/-- A program that writes to a table; a fault stops it and takes nothing back. -/
abbrev Writing := ExceptT Fault (StateM Namespaces)

namespace Writing

/-! ### Operations step by step -/

/-- Maps a prefix unless it is mapped already. -/
def setPrefix (name uri : String) : Writing Unit := do
  if ! isNcName name then throw (.namespaces ("Invalid NCName: " ++ name))
  match (← get).entries.get? name with
  | some _ => return ()
  | none => modify fun t => ⟨t.entries.insert name uri⟩

/-- Writes a reserved entry, which must not hold anything else. -/
def setReserved (name label uri : String) : Writing Unit := do
  match (← get).entries.get? name with
  | some there =>
    if there ≠ uri then throw (.namespaces (label ++ " is already set to " ++ there))
  | none => pure ()
  modify fun t => ⟨t.entries.insert name uri⟩

/-- Writes one entry of a prefix map by way of the default namespace or of a prefix. -/
def addEntry (includeDefaults : Bool) (name : String) (value : Value) : Writing Unit := do
  match contextUri? value with
  | none => return ()
  | some uri =>
    let t ← get
    if name.isEmpty then
      if includeDefaults && t.default?.isNone then
        setReserved Namespaces.defaultName "Default" uri
    else if ! t.contains name && isNcName name then setPrefix name uri

/-- Writes the entries of a prefix map, in order. -/
def addEntries (includeDefaults : Bool) : List (String × Value) → Writing Unit
  | [] => return ()
  | e :: rest => do
    addEntry includeDefaults e.1 e.2
    addEntries includeDefaults rest

/-- The outcome of a program and the table that it leaves, also when it fails. -/
def runOn {α : Type} (p : Writing α) (t : Namespaces) : Result α × Namespaces :=
  StateT.run (ExceptT.run p) t

/-- The run of a program that makes a table of another, or fails and leaves that as it is. -/
def whole (t : Namespaces) : Result Namespaces → Result Unit × Namespaces
  | .ok t' => (.ok (), t')
  | .error f => (.error f, t)

theorem runOn_bind {α β : Type} (p : Writing α) (k : α → Writing β) (t : Namespaces) :
    (p >>= k).runOn t = match p.runOn t with
      | (.ok a, t') => (k a).runOn t'
      | (.error f, t') => (.error f, t') := by
  show StateT.run (ExceptT.run (p >>= k)) t = _
  rw [ExceptT.run_bind, StateT.run_bind]
  unfold runOn
  cases StateT.run (ExceptT.run p) t with
  | mk r t' => cases r <;> rfl

/-- A program that looks at the table is one that is known for that table. -/
theorem runOn_look {α : Type} (p : Namespaces → Writing α) (t : Namespaces) :
    (get >>= p : Writing α).runOn t = (p t).runOn t := rfl

theorem runOn_setPrefix (t : Namespaces) (name uri : String) :
    (setPrefix name uri).runOn t = whole t (t.set name uri) := by
  unfold setPrefix Namespaces.set Table.insertNew Table.contains
  cases isNcName name with
  | false => rfl
  | true =>
    refine (runOn_look _ t).trans ?_
    cases t.entries.get? name <;> rfl

theorem runOn_setReserved (t : Namespaces) (name label uri : String) :
    (setReserved name label uri).runOn t = whole t (t.setReserved name label uri) := by
  unfold setReserved Namespaces.setReserved
  refine (runOn_look _ t).trans ?_
  cases hget : t.entries.get? name with
  | none => rfl
  | some there =>
    by_cases h : there = uri
    · -- The entry is written over itself.
      have hsame : t.entries.insert name uri = t.entries := Table.insert_eq_self (h ▸ hget)
      dsimp only
      rw [if_neg (not_not_intro h), if_pos h]
      show (Except.ok (), Namespaces.mk (t.entries.insert name uri)) = (Except.ok (), t)
      rw [hsame]
    · dsimp only
      rw [if_pos h, if_neg h]
      rfl

/-- An entry of a prefix map is written without a fault, since what could fail is looked at
before. -/
theorem runOn_addEntry (t : Namespaces) (includeDefaults : Bool) (name : String) (value : Value) :
    (addEntry includeDefaults name value).runOn t =
      (.ok (), t.addEntry includeDefaults name value) := by
  unfold addEntry Namespaces.addEntry
  cases contextUri? value with
  | none => rfl
  | some uri =>
    refine (runOn_look _ t).trans ?_
    dsimp only
    by_cases hempty : name.isEmpty = true
    · rw [if_pos hempty, if_pos hempty]
      cases includeDefaults with
      | false => rfl
      | true =>
        unfold Table.insertNew Table.contains Namespaces.default?
        cases hget : t.entries.get? Namespaces.defaultName with
        | some there => rfl
        | none =>
          refine (runOn_setReserved t Namespaces.defaultName "Default" uri).trans ?_
          unfold Namespaces.setReserved
          rw [hget]
          rfl
    · rw [if_neg hempty, if_neg hempty]
      cases hname : isNcName name with
      | false =>
        rw [Bool.and_false]
        rfl
      | true =>
        unfold Namespaces.contains Table.insertNew
        cases hcontains : t.entries.contains name with
        | true => rfl
        | false =>
          refine (runOn_setPrefix t name uri).trans ?_
          unfold Namespaces.set Table.insertNew
          rw [if_pos hname, hcontains]
          rfl

theorem runOn_addEntries (t : Namespaces) (includeDefaults : Bool) (es : List (String × Value)) :
    (addEntries includeDefaults es).runOn t =
      (.ok (), es.foldl (fun t e => t.addEntry includeDefaults e.1 e.2) t) := by
  induction es generalizing t with
  | nil => rfl
  | cons e es ih =>
    unfold addEntries
    rw [runOn_bind, runOn_addEntry]
    exact ih _

end Writing

namespace Namespaces

/-! ### Operations -/

/-- An operation on a table. -/
inductive Operation where
  | set (name uri : String)
  | setDefault (uri : String)
  | setBase (uri : String)
  | clearDefault
  | clearBase
  | addContext (context : PrefixMap) (includeDefaults : Bool)

namespace Operation

/-- What an operation does, step by step. -/
def program : Operation → Writing Unit
  | set name uri => .setPrefix name uri
  | setDefault uri => .setReserved defaultName "Default" uri
  | setBase uri => .setReserved baseName "Base" uri
  | clearDefault => modify fun t => ⟨t.entries.erase defaultName⟩
  | clearBase => modify fun t => ⟨t.entries.erase baseName⟩
  | addContext context includeDefaults => .addEntries includeDefaults context.entries

/-- The outcome of an operation and the table that it leaves, also when it fails. -/
def run (o : Operation) (t : Namespaces) : Result Unit × Namespaces := o.program.runOn t

/-- The table that an operation makes of another. -/
def result (o : Operation) (t : Namespaces) : Result Namespaces :=
  match o with
  | set name uri => t.set name uri
  | setDefault uri => t.setDefault uri
  | setBase uri => t.setBase uri
  | clearDefault => .ok t.clearDefault
  | clearBase => .ok t.clearBase
  | addContext context includeDefaults => .ok (t.addContext context includeDefaults)

/-- An operation makes a table of another, or it fails and leaves that as it is. -/
theorem run_eq (o : Operation) (t : Namespaces) : o.run t = Writing.whole t (o.result t) := by
  cases o with
  | set name uri => exact Writing.runOn_setPrefix t name uri
  | setDefault uri => exact Writing.runOn_setReserved t defaultName "Default" uri
  | setBase uri => exact Writing.runOn_setReserved t baseName "Base" uri
  | clearDefault => rfl
  | clearBase => rfl
  | addContext context includeDefaults =>
    exact Writing.runOn_addEntries t includeDefaults context.entries

/-- An operation that clears a name. -/
def Clears (o : Operation) (name : String) : Prop :=
  (o = clearDefault ∧ name = defaultName) ∨ (o = clearBase ∧ name = baseName)

/-- Only reserved names are cleared. -/
theorem Clears.isReserved {o : Operation} {name : String} (h : o.Clears name) :
    isReserved name = true := by
  rcases h with ⟨_, rfl⟩ | ⟨_, rfl⟩ <;> rfl

end Operation

/-- The table that operations leave one after the other, whatever their outcomes. -/
def after (t : Namespaces) (operations : List Operation) : Namespaces :=
  operations.foldl (fun t o => (o.run t).2) t

/-! ### What stays -/

/-- A table that has the prefixes of another in front of its own, in the same order and with the
same namespaces, and every entry of the other whose name may not have been cleared. -/
structure Kept (cleared : String → Prop) (t t' : Namespaces) : Prop where
  prefixes : t.prefixes <+: t'.prefixes
  mapped : ∀ name uri, ¬ cleared name → t.entries.get? name = some uri →
    t'.entries.get? name = some uri

namespace Kept

variable {cleared : String → Prop} {t t' t₂ : Namespaces} {name uri : String}

theorem refl (t : Namespaces) : Kept cleared t t where
  prefixes := List.prefix_refl _
  mapped _ _ _ h := h

theorem trans (h : Kept cleared t t') (h' : Kept cleared t' t₂) : Kept cleared t t₂ where
  prefixes := h.prefixes.trans h'.prefixes
  mapped name uri hc hn := h'.mapped name uri hc (h.mapped name uri hc hn)

theorem mono {cleared' : String → Prop} (h : Kept cleared t t')
    (hsub : ∀ name, cleared name → cleared' name) : Kept cleared' t t' where
  prefixes := h.prefixes
  mapped name uri hc := h.mapped name uri fun hn => hc (hsub name hn)

/-- A new entry stands behind all others. -/
theorem insertNew (t : Namespaces) (name uri : String) :
    Kept cleared t ⟨t.entries.insertNew name uri⟩ where
  prefixes := by
    unfold Table.insertNew
    split
    · exact List.prefix_refl _
    · rename_i hnew
      rw [Table.contains_iff] at hnew
      show _ <+: (putKey name uri t.entries.entries).filter _
      rw [putKey_of_notMem hnew, List.filter_append]
      exact List.prefix_append _ _
  mapped n u _ hn := by
    rw [Table.get?_insertNew, hn]
    rfl

/-- The prefixes do not see a reserved entry go. -/
theorem erase (t : Namespaces) (hname : isReserved name = true) (hcleared : cleared name) :
    Kept cleared t ⟨t.entries.erase name⟩ where
  prefixes := by
    have hall : ∀ es : List (String × String),
        (dropKey name es).filter (fun e => ! isReserved e.1) =
          es.filter fun e => ! isReserved e.1 := by
      intro es
      induction es with
      | nil => rfl
      | cons e es ih =>
        obtain ⟨n, u⟩ := e
        by_cases hn : n = name
        · rw [dropKey, if_pos hn, ih, List.filter_cons_of_neg (by rw [hn, hname]; decide)]
        · rw [dropKey, if_neg hn, List.filter_cons, List.filter_cons, ih]
    show t.prefixes <+: (dropKey name t.entries.entries).filter _
    rw [hall]
    exact List.prefix_refl _
  mapped n u hn h := by
    have hne : n ≠ name := by
      rintro rfl
      exact hn hcleared
    rw [Table.get?_erase, if_neg hne, h]

theorem set (h : t.set name uri = .ok t') : Kept cleared t t' := by
  unfold Namespaces.set at h
  split at h
  · cases h
    exact insertNew t name uri
  · cases h

theorem setReserved {label : String} (h : t.setReserved name label uri = .ok t') :
    Kept cleared t t' := by
  unfold Namespaces.setReserved at h
  split at h
  · split at h
    · cases h
      exact refl t
    · cases h
  · rename_i hnone
    cases h
    have hnew : t.entries.insertNew name uri = t.entries.insert name uri := by
      unfold Table.insertNew Table.contains
      rw [hnone]
      rfl
    rw [← hnew]
    exact insertNew t name uri

theorem addEntry (t : Namespaces) (includeDefaults : Bool) (name : String) (value : Value) :
    Kept cleared t (t.addEntry includeDefaults name value) := by
  unfold Namespaces.addEntry
  split
  · exact refl t
  · split
    · split
      · exact insertNew t defaultName _
      · exact refl t
    · split
      · exact insertNew t name _
      · exact refl t

theorem addContext (t : Namespaces) (context : PrefixMap) (includeDefaults : Bool) :
    Kept cleared t (t.addContext context includeDefaults) := by
  unfold Namespaces.addContext
  induction context.entries generalizing t with
  | nil => exact refl t
  | cons e es ih => exact (addEntry t includeDefaults e.1 e.2).trans (ih _)

theorem result {o : Operation} (h : o.result t = .ok t') : Kept o.Clears t t' := by
  cases o with
  | set name uri => exact set h
  | setDefault uri => exact setReserved h
  | setBase uri => exact setReserved h
  | clearDefault =>
    cases h
    exact erase t rfl (.inl ⟨rfl, rfl⟩)
  | clearBase =>
    cases h
    exact erase t rfl (.inr ⟨rfl, rfl⟩)
  | addContext context includeDefaults =>
    cases h
    exact addContext t context includeDefaults

/-- One operation keeps all that it does not clear. -/
theorem run (o : Operation) (t : Namespaces) : Kept o.Clears t (o.run t).2 := by
  rw [o.run_eq]
  cases h : o.result t with
  | ok t' => exact result h
  | error f => exact refl t

/-- Operations keep all that none of them clears. -/
theorem after (t : Namespaces) (operations : List Operation) :
    Kept (fun name => ∃ o ∈ operations, o.Clears name) t (t.after operations) := by
  induction operations generalizing t with
  | nil => exact refl t
  | cons o operations ih =>
    refine ((run o t).mono ?_).trans ((ih (o.run t).2).mono ?_)
    · intro name hclears
      exact ⟨o, List.mem_cons_self, hclears⟩
    · rintro name ⟨o', ho', hclears⟩
      exact ⟨o', List.mem_cons_of_mem o ho', hclears⟩

end Kept

/-! ### Sequences of operations -/

theorem Reachable.run {t : Namespaces} (ht : t.Reachable) (o : Operation) :
    (o.run t).2.Reachable := by
  rw [o.run_eq]
  cases h : o.result t with
  | error f => exact ht
  | ok t' =>
    cases o with
    | set name uri => exact .set ht h
    | setDefault uri => exact .setDefault ht h
    | setBase uri => exact .setBase ht h
    | clearDefault =>
      cases h
      exact .clearDefault ht
    | clearBase =>
      cases h
      exact .clearBase ht
    | addContext context includeDefaults =>
      cases h
      exact .addContext ht context includeDefaults

theorem Reachable.after {t : Namespaces} (ht : t.Reachable) (operations : List Operation) :
    (t.after operations).Reachable := by
  induction operations generalizing t with
  | nil => exact ht
  | cons o operations ih => exact ih (ht.run o)

/-- **What operations settle stays settled.** Whatever operations have been done to an empty table,
every name in it is reserved or can be a prefix, which then is not reserved and has no colon. After
any further operations the prefixes stand in front of all new ones, in their order and with their
namespaces; a reserved name has lost or changed its namespace only if one of these operations
cleared it. An operation that fails leaves the table as it is, and no addition of a prefix map
fails. -/
theorem operations_settle (before later : List Operation) :
    (∀ name ∈ (empty.after before).entries.keys, name = defaultName ∨ name = baseName ∨
      isNcName name = true ∧ isReserved name = false ∧ ':' ∉ name.toList) ∧
    (empty.after before).prefixes <+: (empty.after (before ++ later)).prefixes ∧
    (∀ name uri, isReserved name = false → (empty.after before).entries.get? name = some uri →
      (empty.after (before ++ later)).entries.get? name = some uri) ∧
    (∀ uri, (empty.after before).default? = some uri → .clearDefault ∉ later →
      (empty.after (before ++ later)).default? = some uri) ∧
    (∀ uri, (empty.after before).base? = some uri → .clearBase ∉ later →
      (empty.after (before ++ later)).base? = some uri) ∧
    (∀ (o : Operation) (f : Fault), (o.run (empty.after before)).1 = .error f →
      (o.run (empty.after before)).2 = empty.after before) ∧
    ∀ context includeDefaults,
      ((Operation.addContext context includeDefaults).run (empty.after before)).1 = .ok () := by
  have hreach : (empty.after before).Reachable := Reachable.empty.after before
  have hsplit : empty.after (before ++ later) = (empty.after before).after later :=
    List.foldl_append
  have hkept := Kept.after (empty.after before) later
  rw [hsplit]
  refine ⟨?_, hkept.prefixes, ?_, ?_, ?_, ?_, ?_⟩
  · intro name hname
    by_cases hreserved : isReserved name = true
    · unfold isReserved at hreserved
      rw [Bool.or_eq_true, decide_eq_true_eq, decide_eq_true_eq] at hreserved
      exact hreserved.imp id .inl
    · have hnc := (hreach.named name hname).resolve_left hreserved
      exact .inr (.inr ⟨hnc, Bool.eq_false_iff.2 hreserved, colon_notMem_of_isNcName hnc⟩)
  · intro name uri hname
    refine hkept.mapped name uri ?_
    rintro ⟨o, _, hclears⟩
    rw [hclears.isReserved] at hname
    cases hname
  · intro uri huri hno
    refine hkept.mapped defaultName uri ?_ huri
    rintro ⟨o, ho, ⟨rfl, _⟩ | ⟨_, hname⟩⟩
    · exact hno ho
    · exact absurd hname (by decide)
  · intro uri huri hno
    refine hkept.mapped baseName uri ?_ huri
    rintro ⟨o, ho, ⟨_, hname⟩ | ⟨rfl, _⟩⟩
    · exact absurd hname (by decide)
    · exact hno ho
  · intro o f hf
    rw [o.run_eq] at hf ⊢
    cases h : o.result (empty.after before) with
    | ok t' =>
      rw [h] at hf
      cases hf
    | error f' => rfl
  · intro context includeDefaults
    rw [Operation.run_eq]
    rfl

/-- Operations that set a table up. -/
def settingUp : List Operation :=
  [.setDefault "http://a.org/", .set "ex" "http://example.org/", .set "1st" "http://one.org/",
    .setBase "http://b.org/"]

/-- Operations that map a prefix once more, set the default namespace anew when it has been cleared
and add a prefix map with a name that can be no prefix. -/
def settingAnew : List Operation :=
  [.set "ex" "http://other.org/", .setDefault "http://c.org/", .clearDefault,
    .setDefault "http://c.org/",
    .addContext (Table.ofList [("", .text "http://d.org/"), ("a b", .text "http://e.org/"),
      ("sh", .text "http://f.org/"), ("ex", .text "http://g.org/")]) true]

/-- The prefix and the base namespace are as they were; the default namespace could be set anew only
because it was cleared. -/
theorem operations_settle_anew :
    (empty.after settingUp).prefixes <+: (empty.after (settingUp ++ settingAnew)).prefixes ∧
      (empty.after settingUp).prefixes = [("ex", "http://example.org/")] ∧
      (empty.after (settingUp ++ settingAnew)).prefixes =
        [("ex", "http://example.org/"), ("sh", "http://f.org/")] ∧
      (empty.after (settingUp ++ settingAnew)).entries.get? "ex" = some "http://example.org/" ∧
      (empty.after (settingUp ++ settingAnew)).base? = some "http://b.org/" ∧
      (empty.after settingUp).default? = some "http://a.org/" ∧
      (empty.after (settingUp ++ settingAnew)).default? = some "http://c.org/" ∧
      ((Operation.setDefault "http://c.org/").run (empty.after settingUp)).1 =
        .error (.namespaces "Default is already set to http://a.org/") ∧
      ((Operation.setDefault "http://c.org/").run (empty.after settingUp)).2 =
        empty.after settingUp := by
  obtain ⟨_, hprefixes, hmapped, _, hbase, hfailed, _⟩ :=
    operations_settle settingUp settingAnew
  have hthere : (empty.after settingUp).entries.get? defaultName = some "http://a.org/" := by
    decide +kernel
  have hfault : ((Operation.setDefault "http://c.org/").run (empty.after settingUp)).1 =
      .error (.namespaces "Default is already set to http://a.org/") := by
    rw [Operation.run_eq, Operation.result, setDefault, setReserved, hthere]
    rfl
  exact ⟨hprefixes, by decide +kernel, by decide +kernel,
    hmapped "ex" "http://example.org/" (by decide +kernel) (by decide +kernel),
    hbase "http://b.org/" (by decide +kernel) (by simp [settingAnew]), hthere,
    by decide +kernel, hfault, hfailed _ _ hfault⟩

end Namespaces

end SlotFrame
