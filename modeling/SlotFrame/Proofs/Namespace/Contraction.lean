import SlotFrame.Data.Text
import SlotFrame.Proofs.Namespace.Tables

/-! # Contraction and expansion

A text that a namespace begins is contracted to the name of the namespace and what is left of the
text. Expansion splits a contracted text at its first colon, which is the one behind the name, since
no name has a colon. It does not split a text with `://`, and what is left of a text below the base
namespace stands alone, so a colon in it is taken for one behind a name.

Main definition: `Namespaces.contracting?`.

Main statements: `Namespaces.curieFor?_eq_some_iff`, `Namespaces.parts_curieOf` and
`Namespaces.Reachable.uriFor_curieFor?`. -/

namespace SlotFrame

/-! ### Colons -/

theorem splitAtFirst_append {c : Char} {before : List Char} (h : c ∉ before) (after : List Char) :
    splitAtFirst c (before ++ c :: after) = some (before, after) := by
  induction before with
  | nil => simp [splitAtFirst]
  | cons d before ih =>
    rw [List.mem_cons, not_or] at h
    have hd : d ≠ c := fun e => h.1 e.symm
    rw [List.cons_append, splitAtFirst, if_neg hd, ih h.2]
    rfl

theorem splitAtFirst_of_notMem {c : Char} {cs : List Char} (h : c ∉ cs) :
    splitAtFirst c cs = none := by
  induction cs with
  | nil => rfl
  | cons d cs ih =>
    rw [List.mem_cons, not_or] at h
    have hd : d ≠ c := fun e => h.1 e.symm
    rw [splitAtFirst, if_neg hd, ih h.2]
    rfl

theorem occursIn_singleton (c : Char) (cs : List Char) : occursIn [c] cs = true ↔ c ∈ cs := by
  induction cs with
  | nil => simp [occursIn]
  | cons d cs ih => simp [occursIn, ih]

/-- A text that another begins is the other and what is left. -/
theorem eq_append_of_startsWith {whole start : String} (h : startsWith whole start = true) :
    whole = start ++ dropChars start.length whole := by
  obtain ⟨rest, hrest⟩ := List.isPrefixOf_iff_prefix.1 h
  apply String.toList_inj.1
  unfold dropChars
  rw [String.toList_append, String.toList_ofList, ← String.length_toList, ← hrest,
    List.drop_left]

/-- No name of a prefix has a colon. -/
theorem colon_notMem_of_isNcName {name : String} (h : isNcName name = true) :
    ':' ∉ name.toList := by
  have hstart : isNcNameStart ':' = false := by decide +kernel
  have hchar : isNcNameChar ':' = false := by decide +kernel
  unfold isNcName at h
  cases hname : name.toList with
  | nil => exact List.not_mem_nil
  | cons c cs =>
    rw [hname] at h
    dsimp only at h
    rw [Bool.and_eq_true, List.all_eq_true] at h
    intro hmem
    rcases List.mem_cons.1 hmem with rfl | hmem
    · rw [hstart] at h
      exact Bool.false_ne_true h.1
    · have := h.2 _ hmem
      rw [hchar] at this
      exact Bool.false_ne_true this

namespace Namespaces

variable {t : Namespaces} {uri c name : String} {defaultOk : Bool}

/-! ### The entry that contracts a text -/

/-- The entry that contracts a text. -/
def contracting? (t : Namespaces) (uri : String) (defaultOk : Bool) : Option (String × String) :=
  bestOf (t.entries.entries.filter (isEligible uri defaultOk))

/-- The entry that a search for the best ends with is the one that it began with, or one of those
that it has gone through. -/
theorem mem_of_foldl_isBetter {es : List (String × String)} {best : Option (String × String)}
    {e : String × String}
    (h : es.foldl (fun best e => match best with
      | none => some e
      | some b => if isBetter e b then some e else some b) best = some e) :
    best = some e ∨ e ∈ es := by
  induction es generalizing best with
  | nil => exact .inl h
  | cons d es ih =>
    rw [List.foldl_cons] at h
    rcases ih h with hbest | hmem
    · cases best with
      | none =>
        cases hbest
        exact .inr List.mem_cons_self
      | some b =>
        dsimp only at hbest
        split at hbest
        · cases hbest
          exact .inr List.mem_cons_self
        · exact .inl hbest
    · exact .inr (List.mem_cons_of_mem d hmem)

theorem mem_of_bestOf {es : List (String × String)} {e : String × String}
    (h : bestOf es = some e) : e ∈ es :=
  (mem_of_foldl_isBetter h).resolve_left (Option.some_ne_none e).symm

theorem curieFor?_eq_some_iff : t.curieFor? uri defaultOk = .ok (some c) ↔
    looksContracted uri = false ∧ ∃ e, t.contracting? uri defaultOk = some e ∧
      c = curieOf e.1 (dropChars e.2.length uri) := by
  unfold curieFor? contracting?
  cases looksContracted uri with
  | true =>
    constructor
    · intro h
      cases h
    · rintro ⟨⟨⟩, _⟩
  | false =>
    rw [if_neg Bool.false_ne_true, Except.ok.injEq, Option.map_eq_some_iff]
    constructor
    · rintro ⟨e, he, hc⟩
      exact ⟨rfl, e, he, hc.symm⟩
    · rintro ⟨_, e, he, hc⟩
      exact ⟨e, he, hc.symm⟩

/-- The entry that contracts a text is mapped, and its namespace begins the text. -/
theorem contracting?_spec {uriStart : String}
    (h : t.contracting? uri defaultOk = some (name, uriStart)) :
    t.entries.get? name = some uriStart ∧ uri = uriStart ++ dropChars uriStart.length uri := by
  obtain ⟨hmem, heligible⟩ := List.mem_filter.1 (mem_of_bestOf h)
  unfold isEligible at heligible
  rw [Bool.and_eq_true] at heligible
  exact ⟨lookupKey_of_mem t.entries.nodup hmem, eq_append_of_startsWith heligible.1⟩

/-! ### Expansion -/

/-- What is written below a name is split into the name and what was written, unless it stands below
the base namespace and has a colon. -/
theorem parts_curieOf (hname : isReserved name = true ∨ isNcName name = true) (localName : String)
    (hbase : name = baseName → occurs ":" localName = false) :
    parts (curieOf name localName) = .ok (name, localName) := by
  by_cases hd : name = defaultName
  · have hsplit : splitAtFirst ':' (":" ++ localName).toList = some ([], localName.toList) := by
      rw [String.toList_append]
      exact splitAtFirst_append List.not_mem_nil localName.toList
    unfold curieOf parts
    rw [if_pos hd, hsplit, hd]
    dsimp only
    rw [String.ofList_toList]
  · by_cases hb : name = baseName
    · have hcolon : ':' ∉ localName.toList := by
        rw [← occursIn_singleton]
        exact Bool.eq_false_iff.1 (hbase hb)
      unfold curieOf parts
      rw [if_neg hd, if_pos hb, splitAtFirst_of_notMem hcolon, hb]
    · have hnc : isNcName name = true := by
        refine hname.resolve_left ?_
        unfold isReserved
        simp [hd, hb]
      have hsplit : splitAtFirst ':' (name ++ ":" ++ localName).toList =
          some (name.toList, localName.toList) := by
        rw [String.toList_append, String.toList_append, List.append_assoc]
        exact splitAtFirst_append (colon_notMem_of_isNcName hnc) localName.toList
      unfold curieOf parts
      rw [if_neg hd, if_neg hb, hsplit]
      cases hlist : name.toList with
      | nil =>
        unfold isNcName at hnc
        rw [hlist] at hnc
        cases hnc
      | cons c cs =>
        dsimp only
        rw [← hlist, String.ofList_toList, String.ofList_toList, if_pos hnc]

theorem uriFor_of_scheme (t : Namespaces) (h : occurs "://" c = true) : t.uriFor c = .ok c := by
  unfold uriFor
  rw [if_pos h]
  rfl

theorem uriFor_of_parts {localName uriStart : String} (h : occurs "://" c = false)
    (hparts : parts c = .ok (name, localName)) (hget : t.entries.get? name = some uriStart) :
    t.uriFor c = .ok (uriStart ++ localName) := by
  unfold uriFor
  rw [if_neg (Bool.eq_false_iff.1 h), hparts]
  dsimp only [bind, Except.bind]
  rw [hget]
  rfl

/-- **Expansion undoes contraction unless it is misled.** A text that a table contracts has been
contracted by one of its entries. Expansion leaves a contracted text with `://` as it is; from any
other it gives the text back, unless the base namespace has left a colon in it. -/
theorem Reachable.uriFor_curieFor? (ht : t.Reachable)
    (h : t.curieFor? uri defaultOk = .ok (some c)) :
    ∃ e, t.contracting? uri defaultOk = some e ∧
      c = curieOf e.1 (dropChars e.2.length uri) ∧
      (occurs "://" c = true → t.uriFor c = .ok c) ∧
      (occurs "://" c = false → (e.1 = baseName → occurs ":" c = false) →
        t.uriFor c = .ok uri) := by
  obtain ⟨_, ⟨name, uriStart⟩, he, hc⟩ := curieFor?_eq_some_iff.1 h
  obtain ⟨hget, huri⟩ := contracting?_spec he
  refine ⟨(name, uriStart), he, hc, t.uriFor_of_scheme, ?_⟩
  intro hscheme hbase
  have hname : isReserved name = true ∨ isNcName name = true := by
    refine ht.named name ?_
    rw [Table.mem_keys_iff, hget]
    rfl
  have hlocal : name = baseName → occurs ":" (dropChars uriStart.length uri) = false := by
    rintro rfl
    rw [← hbase rfl, hc]
    rfl
  rw [uriFor_of_parts hscheme (hc ▸ parts_curieOf hname _ hlocal) hget, ← huri]

/-- A text with colons and slashes that is contracted by the default namespace, the longest one,
comes back. -/
theorem uriFor_curieFor?_nested :
    ∃ t : Namespaces, t.Reachable ∧
      t.curieFor? "http://a.org/x/b:c/d" true = .ok (some ":b:c/d") ∧
      t.uriFor ":b:c/d" = .ok "http://a.org/x/b:c/d" := by
  have hset : empty.set "ex" "http://a.org/" =
      .ok ⟨Table.ofList [("ex", "http://a.org/")]⟩ := rfl
  have hdefault : setDefault ⟨Table.ofList [("ex", "http://a.org/")]⟩ "http://a.org/x/" =
      .ok ⟨Table.ofList [("ex", "http://a.org/"), ("@default", "http://a.org/x/")]⟩ := rfl
  have ht := Reachable.setDefault (Reachable.set Reachable.empty hset) hdefault
  have hc : curieFor? ⟨Table.ofList [("ex", "http://a.org/"), ("@default", "http://a.org/x/")]⟩
      "http://a.org/x/b:c/d" true = .ok (some ":b:c/d") := rfl
  obtain ⟨e, he, _, _, hback⟩ := ht.uriFor_curieFor? hc
  have hdefault : e = ("@default", "http://a.org/x/") := (Option.some.inj he).symm
  refine ⟨_, ht, hc, hback rfl ?_⟩
  rw [hdefault]
  intro hbase
  exact absurd hbase (by decide)

/-- A text in which another one is embedded does not come back from below a prefix, and one that has
a colon does not come back from below the base namespace. -/
theorem uriFor_curieFor?_misled :
    (∃ t : Namespaces, t.Reachable ∧
      t.curieFor? "http://a.org/x://y" true = .ok (some "ex:x://y") ∧
      t.uriFor "ex:x://y" = .ok "ex:x://y" ∧
      t.uriFor "ex:x://y" ≠ .ok "http://a.org/x://y") ∧
    ∃ t : Namespaces, t.Reachable ∧
      t.curieFor? "http://a.org/x:y" true = .ok (some "x:y") ∧
      t.uriFor "x:y" = fault "Unknown CURIE prefix: x" ∧
      t.uriFor "x:y" ≠ .ok "http://a.org/x:y" := by
  have hset : empty.set "ex" "http://a.org/" =
      .ok ⟨Table.ofList [("ex", "http://a.org/")]⟩ := rfl
  have hbase : empty.setBase "http://a.org/" =
      .ok ⟨Table.ofList [("@base", "http://a.org/")]⟩ := rfl
  refine ⟨⟨_, Reachable.set Reachable.empty hset, rfl, rfl, ?_⟩,
    ⟨_, Reachable.setBase Reachable.empty hbase, rfl, rfl, ?_⟩⟩
  · intro h
    have hsame : "ex:x://y" = "http://a.org/x://y" := Except.ok.inj h
    revert hsame
    decide
  · intro h
    cases h

end Namespaces

end SlotFrame
