import Mathlib.Data.List.Induction
import SlotFrame.Proofs.Namespace.Contraction

/-! # The namespace that contracts a text

One pass over a table keeps the best entry seen so far. Entries are compared by a weight, first the
length of the namespace and then whether the entry is a prefix or reserved, and a later entry has to
weigh more to take the place of an earlier one. So the entry that is left is the first of the
heaviest.

All namespaces that begin one text begin one another, so they compare alike by characters and by
bytes, and the text can be cut behind each of them.

Main definitions: `Namespaces.weight`, `Namespaces.Eligible`, `Namespaces.Contracting`.

Main statements: `Namespaces.bestOf_eq_some_iff` (a running maximum is the first of the heaviest),
`Namespaces.contracting?_eq_some_iff` and `Namespaces.curieFor?_longest`. -/

namespace SlotFrame

/-! ### Texts in texts -/

theorem occursIn_iff {needle : List Char} (cs : List Char) :
    occursIn needle cs = true ↔ needle <:+: cs := by
  induction cs with
  | nil => simp [occursIn]
  | cons c cs ih =>
    rw [occursIn, Bool.or_eq_true, List.isPrefixOf_iff_prefix, ih, List.infix_cons_iff]

theorem startsWith_iff {whole start : String} :
    startsWith whole start = true ↔ start.toList <+: whole.toList :=
  List.isPrefixOf_iff_prefix

/-- Of two texts that begin a third one the shorter one begins the other. -/
theorem exists_append_of_begins {whole start start' : String} (h : start.toList <+: whole.toList)
    (h' : start'.toList <+: whole.toList) (hlength : start.length ≤ start'.length) :
    ∃ rest, start' = start ++ rest := by
  obtain ⟨rest, hrest⟩ := List.prefix_of_prefix_length_le h h' hlength
  refine ⟨String.ofList rest, ?_⟩
  apply String.toList_inj.1
  rw [String.toList_append, String.toList_ofList, hrest]

/-- Beginnings of one text compare alike by bytes and by characters. -/
theorem utf8ByteSize_le_iff {whole start start' : String}
    (h : start.toList <+: whole.toList) (h' : start'.toList <+: whole.toList) :
    start.utf8ByteSize ≤ start'.utf8ByteSize ↔ start.length ≤ start'.length := by
  constructor
  · intro hbytes
    by_contra hlength
    obtain ⟨rest, hrest⟩ := exists_append_of_begins h' h (by omega)
    rw [hrest, String.utf8ByteSize_append] at hbytes
    have hempty : rest = "" := String.utf8ByteSize_eq_zero_iff.1 (by omega)
    rw [hrest, hempty, String.append_empty] at hlength
    exact hlength (Nat.le_refl _)
  · intro hlength
    obtain ⟨rest, hrest⟩ := exists_append_of_begins h h' hlength
    rw [hrest, String.utf8ByteSize_append]
    exact Nat.le_add_right _ _

namespace Namespaces

variable {t : Namespaces} {uri : String} {defaultOk : Bool} {e d : String × String}

/-! ### Weights -/

/-- What entries are compared by: the length of the namespace, and between equals whether the entry
is a prefix. -/
def weight (e : String × String) : Nat := 2 * e.2.length + if isReserved e.1 then 0 else 1

theorem isBetter_iff : isBetter e d = true ↔ weight d < weight e := by
  unfold isBetter weight
  simp only [Bool.or_eq_true, Bool.and_eq_true, Bool.not_eq_true', decide_eq_true_eq]
  cases isReserved e.1 <;> cases isReserved d.1 <;> simp <;> omega

/-! ### The running maximum -/

/-- An entry is the first of the heaviest. -/
def FirstHeaviest (es : List (String × String)) (e : String × String) : Prop :=
  ∃ before after, es = before ++ e :: after ∧ (∀ d ∈ before, weight d < weight e) ∧
    ∀ d ∈ after, weight d ≤ weight e

theorem FirstHeaviest.weight_le {es : List (String × String)} (h : FirstHeaviest es e)
    (hd : d ∈ es) : weight d ≤ weight e := by
  obtain ⟨before, after, rfl, hbefore, hafter⟩ := h
  rcases List.mem_append.1 hd with hd | hd
  · exact Nat.le_of_lt (hbefore d hd)
  · rcases List.mem_cons.1 hd with rfl | hd
    · exact Nat.le_refl _
    · exact hafter d hd

/-- With one more entry the first of the heaviest stays, unless the new one is heavier than all. -/
theorem firstHeaviest_concat_iff {es : List (String × String)} : FirstHeaviest (es ++ [d]) e ↔
    (FirstHeaviest es e ∧ weight d ≤ weight e) ∨ (e = d ∧ ∀ x ∈ es, weight x < weight d) := by
  constructor
  · rintro ⟨before, after, hsplit, hbefore, hafter⟩
    rcases List.eq_nil_or_concat after with rfl | ⟨after, x, rfl⟩
    · obtain ⟨rfl, hd⟩ := List.append_inj' hsplit rfl
      cases hd
      exact .inr ⟨rfl, hbefore⟩
    · rw [List.concat_eq_append] at hsplit hafter
      rw [← List.cons_append, ← List.append_assoc] at hsplit
      obtain ⟨hes, hd⟩ := List.append_inj' hsplit rfl
      cases hd
      have hkept : FirstHeaviest es e :=
        ⟨before, after, hes, hbefore, fun y hy => hafter y (List.mem_append_left _ hy)⟩
      exact .inl ⟨hkept, hafter d (List.mem_append_right _ List.mem_cons_self)⟩
  · rintro (⟨⟨before, after, rfl, hbefore, hafter⟩, hd⟩ | ⟨rfl, hall⟩)
    · refine ⟨before, after ++ [d], by simp, hbefore, fun x hx => ?_⟩
      rcases List.mem_append.1 hx with hx | hx
      · exact hafter x hx
      · rw [List.mem_singleton.1 hx]
        exact hd
    · exact ⟨es, [], rfl, hall, nofun⟩

theorem bestOf_concat (es : List (String × String)) (d : String × String) :
    bestOf (es ++ [d]) = match bestOf es with
      | none => some d
      | some b => if isBetter d b then some d else some b := by
  unfold bestOf
  rw [List.foldl_append]
  rfl

theorem bestOf_eq_none_iff {es : List (String × String)} : bestOf es = none ↔ es = [] := by
  induction es using List.reverseRecOn with
  | nil => simp [bestOf]
  | append_singleton es d _ =>
    rw [bestOf_concat]
    cases bestOf es with
    | none => simp
    | some b => by_cases hd : isBetter d b = true <;> simp [hd]

/-- **A running maximum is the first of the heaviest**, whatever entries come after it. -/
theorem bestOf_eq_some_iff {es : List (String × String)} :
    bestOf es = some e ↔ FirstHeaviest es e := by
  induction es using List.reverseRecOn generalizing e with
  | nil => simp [bestOf, FirstHeaviest]
  | append_singleton es d ih =>
    rw [bestOf_concat, firstHeaviest_concat_iff]
    cases hbest : bestOf es with
    | none =>
      obtain rfl := bestOf_eq_none_iff.1 hbest
      simp [FirstHeaviest, eq_comm]
    | some b =>
      have hb := ih.1 hbest
      have hkept : FirstHeaviest es e ↔ b = e := by rw [← ih, hbest, Option.some.injEq]
      dsimp only
      rw [hkept]
      by_cases hd : isBetter d b = true
      · rw [if_pos hd, Option.some.injEq]
        rw [isBetter_iff] at hd
        constructor
        · rintro rfl
          exact .inr ⟨rfl, fun x hx => Nat.lt_of_le_of_lt (hb.weight_le hx) hd⟩
        · rintro (⟨rfl, hle⟩ | ⟨rfl, _⟩)
          · exact absurd hd (Nat.not_lt.2 hle)
          · rfl
      · rw [if_neg hd, Option.some.injEq]
        rw [isBetter_iff, Nat.not_lt] at hd
        constructor
        · rintro rfl
          exact .inl ⟨rfl, hd⟩
        · rintro (⟨rfl, _⟩ | ⟨rfl, hall⟩)
          · rfl
          · exact absurd (hall b (mem_of_bestOf hbest)) (Nat.not_lt.2 hd)

/-- The first of the heaviest among the entries of one sort, told among all entries. -/
theorem firstHeaviest_filter_iff {es : List (String × String)} {p : String × String → Bool} :
    FirstHeaviest (es.filter p) e ↔ p e = true ∧ (∀ d ∈ es, p d = true → weight d ≤ weight e) ∧
      ∃ before after, es = before ++ e :: after ∧
        ∀ d ∈ before, p d = true → weight d ≠ weight e := by
  constructor
  · intro h
    have hle : ∀ d ∈ es, p d = true → weight d ≤ weight e := fun d hmem hd =>
      h.weight_le (List.mem_filter.2 ⟨hmem, hd⟩)
    obtain ⟨kept, _, hfilter, hkept, _⟩ := h
    obtain ⟨front, back, rfl, rfl, hback⟩ := List.filter_eq_append_iff.1 hfilter
    obtain ⟨passed, after, rfl, hpassed, he, _⟩ := List.filter_eq_cons_iff.1 hback
    refine ⟨he, hle, front ++ passed, after, (List.append_assoc _ _ _).symm, ?_⟩
    intro d hmem hd
    rcases List.mem_append.1 hmem with hmem | hmem
    · exact Nat.ne_of_lt (hkept d (List.mem_filter.2 ⟨hmem, hd⟩))
    · exact absurd hd (hpassed d hmem)
  · rintro ⟨he, hle, before, after, rfl, hbefore⟩
    refine ⟨before.filter p, after.filter p, ?_, ?_, ?_⟩
    · rw [List.filter_append, List.filter_cons_of_pos he]
    · intro d hmem
      obtain ⟨hmem, hd⟩ := List.mem_filter.1 hmem
      exact Nat.lt_of_le_of_ne (hle d (List.mem_append_left _ hmem) hd) (hbefore d hmem hd)
    · intro d hmem
      obtain ⟨hmem, hd⟩ := List.mem_filter.1 hmem
      exact hle d (List.mem_append_right _ (List.mem_cons_of_mem e hmem)) hd

/-! ### The entry that contracts -/

/-- An entry may contract a text if its namespace begins the text, a reserved entry only where the
default and the base namespace are allowed. -/
structure Eligible (uri : String) (defaultOk : Bool) (e : String × String) : Prop where
  begins : e.2.toList <+: uri.toList
  allowed : defaultOk = true ∨ isReserved e.1 = false

theorem isEligible_iff : isEligible uri defaultOk e = true ↔ Eligible uri defaultOk e := by
  unfold isEligible
  rw [Bool.and_eq_true, startsWith_iff, Bool.or_eq_true, Bool.not_eq_true']
  exact ⟨fun h => ⟨h.1, h.2⟩, fun h => ⟨h.begins, h.allowed⟩⟩

/-- The entry of a table that contracts a text: it may, no entry that may has a longer namespace,
it is a prefix if one with a namespace as long may contract the text, and it is the first of its
sort with a namespace as long. Lengths are in bytes. -/
structure Contracting (t : Namespaces) (uri : String) (defaultOk : Bool) (e : String × String) :
    Prop where
  eligible : Eligible uri defaultOk e
  longest : ∀ d ∈ t.entries.entries, Eligible uri defaultOk d → d.2.utf8ByteSize ≤ e.2.utf8ByteSize
  ordinary : ∀ d ∈ t.entries.entries, Eligible uri defaultOk d →
    d.2.utf8ByteSize = e.2.utf8ByteSize → isReserved e.1 = true → isReserved d.1 = true
  first : ∃ before after, t.entries.entries = before ++ e :: after ∧ ∀ d ∈ before,
    Eligible uri defaultOk d → d.2.utf8ByteSize = e.2.utf8ByteSize → isReserved d.1 ≠ isReserved e.1

section comparison

variable (hd : Eligible uri defaultOk d) (he : Eligible uri defaultOk e)

include hd he

theorem utf8ByteSize_eq_iff : d.2.utf8ByteSize = e.2.utf8ByteSize ↔ d.2.length = e.2.length := by
  have hle := utf8ByteSize_le_iff hd.begins he.begins
  have hge := utf8ByteSize_le_iff he.begins hd.begins
  omega

/-- Of two entries that may contract one text the one with the longer namespace is heavier, and
between equals the prefix. -/
theorem weight_le_iff : weight d ≤ weight e ↔ d.2.utf8ByteSize ≤ e.2.utf8ByteSize ∧
    (d.2.utf8ByteSize = e.2.utf8ByteSize → isReserved e.1 = true → isReserved d.1 = true) := by
  rw [utf8ByteSize_le_iff hd.begins he.begins, utf8ByteSize_eq_iff hd he]
  unfold weight
  cases isReserved e.1 <;> cases isReserved d.1 <;> simp <;> omega

theorem weight_eq_iff : weight d = weight e ↔
    d.2.utf8ByteSize = e.2.utf8ByteSize ∧ isReserved d.1 = isReserved e.1 := by
  rw [utf8ByteSize_eq_iff hd he]
  unfold weight
  cases isReserved e.1 <;> cases isReserved d.1 <;> simp <;> omega

end comparison

/-- What contracts a text is the first of the heaviest among the entries that may. -/
theorem contracting_iff : t.Contracting uri defaultOk e ↔ Eligible uri defaultOk e ∧
    (∀ d ∈ t.entries.entries, Eligible uri defaultOk d → weight d ≤ weight e) ∧
    ∃ before after, t.entries.entries = before ++ e :: after ∧
      ∀ d ∈ before, Eligible uri defaultOk d → weight d ≠ weight e := by
  constructor
  · intro h
    obtain ⟨before, after, hentries, hfirst⟩ := h.first
    refine ⟨h.eligible, fun d hmem hd => ?_, before, after, hentries, fun d hmem hd heq => ?_⟩
    · exact (weight_le_iff hd h.eligible).2 ⟨h.longest d hmem hd, h.ordinary d hmem hd⟩
    · obtain ⟨hsize, hsort⟩ := (weight_eq_iff hd h.eligible).1 heq
      exact hfirst d hmem hd hsize hsort
  · rintro ⟨he, hle, before, after, hentries, hfirst⟩
    refine ⟨he, fun d hmem hd => ((weight_le_iff hd he).1 (hle d hmem hd)).1,
      fun d hmem hd => ((weight_le_iff hd he).1 (hle d hmem hd)).2, before, after, hentries, ?_⟩
    intro d hmem hd hsize hsort
    exact hfirst d hmem hd ((weight_eq_iff hd he).2 ⟨hsize, hsort⟩)

/-- The entry that one pass over a table ends with is the one that contracts the text. -/
theorem contracting?_eq_some_iff :
    t.contracting? uri defaultOk = some e ↔ t.Contracting uri defaultOk e := by
  unfold contracting?
  rw [bestOf_eq_some_iff, firstHeaviest_filter_iff, contracting_iff]
  simp only [isEligible_iff]

theorem contracting?_eq_none_iff : t.contracting? uri defaultOk = none ↔
    ∀ e ∈ t.entries.entries, ¬ Eligible uri defaultOk e := by
  unfold contracting?
  rw [bestOf_eq_none_iff, List.filter_eq_nil_iff]
  exact forall₂_congr fun e _ => not_congr isEligible_iff

/-! ### Contraction -/

theorem looksContracted_eq_true_iff :
    looksContracted uri = true ↔ ':' ∈ uri.toList ∧ ¬ [':', '/'] <:+: uri.toList := by
  unfold looksContracted occurs
  rw [Bool.and_eq_true, Bool.not_eq_true', Bool.eq_false_iff, Ne]
  exact and_congr (occursIn_singleton ':' _) (not_congr (occursIn_iff _))

/-- **Contraction picks the longest namespace.** A text that looks contracted already is refused:
one with a colon, none of them before a slash. From any other nothing is made exactly if no entry
may contract it; else one entry of the table contracts it, and the result is the prefix form of that
entry with what is left of the text behind its namespace, where the text can be cut. -/
theorem curieFor?_longest (t : Namespaces) (uri : String) (defaultOk : Bool) :
    ((':' ∈ uri.toList ∧ ¬ [':', '/'] <:+: uri.toList) →
      t.curieFor? uri defaultOk = fault ("Not a valid URI: " ++ uri)) ∧
    ((':' ∉ uri.toList ∨ [':', '/'] <:+: uri.toList) →
      (t.curieFor? uri defaultOk = .ok none ↔
        ∀ e ∈ t.entries.entries, ¬ Eligible uri defaultOk e) ∧
      ((∃ e ∈ t.entries.entries, Eligible uri defaultOk e) →
        ∃! e, t.Contracting uri defaultOk e) ∧
      ∀ e, t.Contracting uri defaultOk e →
        (String.Pos.Raw.mk e.2.utf8ByteSize).IsValid uri ∧
        ∃ rest, uri = e.2 ++ rest ∧ t.curieFor? uri defaultOk = .ok (some (curieOf e.1 rest))) := by
  constructor
  · intro h
    unfold curieFor?
    exact if_pos (looksContracted_eq_true_iff.2 h)
  · intro h
    have hopen : looksContracted uri = false := by
      rw [Bool.eq_false_iff, Ne, looksContracted_eq_true_iff]
      tauto
    have hresult : t.curieFor? uri defaultOk = .ok ((t.contracting? uri defaultOk).map fun e =>
        curieOf e.1 (dropChars e.2.length uri)) := by
      unfold curieFor?
      rw [if_neg (Bool.eq_false_iff.1 hopen)]
      rfl
    refine ⟨?_, ?_, ?_⟩
    · rw [hresult, Except.ok.injEq, Option.map_eq_none_iff]
      exact contracting?_eq_none_iff
    · rintro ⟨e, hmem, he⟩
      cases hfound : t.contracting? uri defaultOk with
      | none => exact absurd he (contracting?_eq_none_iff.1 hfound e hmem)
      | some d =>
        refine ⟨d, contracting?_eq_some_iff.1 hfound, fun d' hd' => ?_⟩
        have hsame := contracting?_eq_some_iff.2 hd'
        rw [hfound] at hsame
        exact (Option.some.inj hsame).symm
    · intro e he
      have huri := eq_append_of_startsWith (startsWith_iff.2 he.eligible.begins)
      refine ⟨String.Pos.Raw.isValid_iff_exists_append.2 ⟨_, _, huri, rfl⟩, _, huri, ?_⟩
      rw [hresult, contracting?_eq_some_iff.2 he]
      rfl

/-- The default namespace and two prefixes stand for one namespace, a third for what it begins
with. -/
def tied : Namespaces := ⟨Table.ofList
  [("web", "http://"), ("@default", "http://größe.org/"), ("b", "http://größe.org/"),
    ("a", "http://größe.org/")]⟩

/-- The first of the two prefixes contracts the text, behind a namespace of more bytes than
characters. -/
theorem curieFor?_longest_tied :
    [':', '/'] <:+: "http://größe.org/maß:1".toList ∧
    tied.Contracting "http://größe.org/maß:1" true ("b", "http://größe.org/") ∧
    (∃! e, tied.Contracting "http://größe.org/maß:1" true e) ∧
    (String.Pos.Raw.mk 19).IsValid "http://größe.org/maß:1" ∧
    (∃ rest, "http://größe.org/maß:1" = "http://größe.org/" ++ rest ∧
      tied.curieFor? "http://größe.org/maß:1" true = .ok (some (curieOf "b" rest))) ∧
    tied.curieFor? "urn:x" true = fault "Not a valid URI: urn:x" ∧
    tied.curieFor? "größe" false = .ok none := by
  have hopen : [':', '/'] <:+: "http://größe.org/maß:1".toList :=
    (occursIn_iff _).1 (by decide)
  have hchosen : tied.Contracting "http://größe.org/maß:1" true ("b", "http://größe.org/") :=
    contracting?_eq_some_iff.1 rfl
  have hmem : ("b", "http://größe.org/") ∈ tied.entries.entries := by decide
  obtain ⟨_, hall⟩ := tied.curieFor?_longest "http://größe.org/maß:1" true
  obtain ⟨_, hunique, hcontract⟩ := hall (.inr hopen)
  obtain ⟨hcut, hrest⟩ := hcontract _ hchosen
  have hrefused := (tied.curieFor?_longest "urn:x" true).1
    (looksContracted_eq_true_iff.1 (by decide))
  have hnone := ((tied.curieFor?_longest "größe" false).2 (.inl (by decide))).1
  refine ⟨hopen, hchosen, hunique ⟨_, hmem, hchosen.eligible⟩, hcut, hrest, hrefused, ?_⟩
  exact hnone.2 (contracting?_eq_none_iff.1 rfl)

end Namespaces

end SlotFrame
