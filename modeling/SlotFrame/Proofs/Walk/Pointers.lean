import SlotFrame.Data.Text
import SlotFrame.Walk.Place

/-! # Pointers read back

A pointer tells the keys and indices that lead to a node, each behind a slash. Slashes and tildes
within them are escaped, so a slash in a pointer always stands in front of a segment, and a tilde
always begins an escape. Split at the slashes and with its escapes undone a pointer gives back what
it was made of, except at the top, whose pointer is that of a single empty key.

Main definitions: `Place.unescape`, `Place.segmentsOf`.

Main statement: `Place.segmentsOf_pointer`. -/

namespace SlotFrame

/-! ### Pieces between slashes -/

theorem splitAll_of_notMem {c : Char} {cs : List Char} (h : c ∉ cs) : splitAll c cs = [cs] := by
  induction cs with
  | nil => rfl
  | cons d cs ih =>
    rw [List.mem_cons, not_or] at h
    have hd : d ≠ c := fun e => h.1 e.symm
    rw [splitAll, if_neg hd, ih h.2]

theorem splitAll_append {c : Char} {before : List Char} (h : c ∉ before) (after : List Char) :
    splitAll c (before ++ c :: after) = before :: splitAll c after := by
  induction before with
  | nil => simp [splitAll]
  | cons d before ih =>
    rw [List.mem_cons, not_or] at h
    have hd : d ≠ c := fun e => h.1 e.symm
    rw [List.cons_append, splitAll, if_neg hd, ih h.2]

/-- Pieces that are written each behind a character that none of them has are found again. -/
theorem splitAll_flatMap {c : Char} {piece : List Char} {pieces : List (List Char)}
    (h : ∀ p ∈ piece :: pieces, c ∉ p) :
    splitAll c (piece ++ pieces.flatMap (c :: ·)) = piece :: pieces := by
  induction pieces generalizing piece with
  | nil =>
    rw [List.flatMap_nil, List.append_nil]
    exact splitAll_of_notMem (h piece List.mem_cons_self)
  | cons next pieces ih =>
    rw [List.flatMap_cons, List.cons_append, splitAll_append (h piece List.mem_cons_self),
      ih fun p hp => h p (List.mem_cons_of_mem _ hp)]

/-- A text in which one character stands for every occurrence of two characters in a row. -/
def replacePair (a b c : Char) : List Char → List Char
  | [] => []
  | [x] => [x]
  | x :: y :: rest =>
    if x = a ∧ y = b then c :: replacePair a b c rest else x :: replacePair a b c (y :: rest)

theorem replacePair_cons_of_ne {a b c x : Char} (h : x ≠ a) (cs : List Char) :
    replacePair a b c (x :: cs) = x :: replacePair a b c cs := by
  cases cs with
  | nil => rfl
  | cons y rest => rw [replacePair, if_neg fun hx => h hx.1]

theorem replacePair_pair (a b c : Char) (cs : List Char) :
    replacePair a b c (a :: b :: cs) = c :: replacePair a b c cs := by
  rw [replacePair, if_pos ⟨rfl, rfl⟩]

/-- An escape that begins alike but is another one stays. -/
theorem replacePair_other {a b c d : Char} (hd : d ≠ b) (ha : d ≠ a) (cs : List Char) :
    replacePair a b c (a :: d :: cs) = a :: d :: replacePair a b c cs := by
  rw [replacePair, if_neg fun h => hd h.2, replacePair_cons_of_ne ha]

namespace Place

/-! ### Segments -/

/-- A segment with its escapes undone: those of slashes first, so that what they leave begins no
escape of a tilde. -/
def unescape (segment : List Char) : String :=
  String.ofList (replacePair '~' '0' '~' (replacePair '~' '1' '/' segment))

theorem slash_notMem_escape (segment : String) : '/' ∉ (escape segment).toList := by
  unfold escape
  rw [String.toList_ofList, List.mem_flatMap]
  rintro ⟨c, -, hc⟩
  by_cases htilde : c = '~'
  · rw [if_pos htilde] at hc
    revert hc
    decide
  · rw [if_neg htilde] at hc
    by_cases hslash : c = '/'
    · rw [if_pos hslash] at hc
      revert hc
      decide
    · rw [if_neg hslash, List.mem_singleton] at hc
      exact hslash hc.symm

/-- Undoing the escapes of slashes leaves those of tildes. -/
theorem replacePair_escape (cs : List Char) :
    replacePair '~' '1' '/' (cs.flatMap fun c =>
      if c = '~' then ['~', '0'] else if c = '/' then ['~', '1'] else [c]) =
      cs.flatMap fun c => if c = '~' then ['~', '0'] else [c] := by
  induction cs with
  | nil => rfl
  | cons c cs ih =>
    rw [List.flatMap_cons, List.flatMap_cons, ← ih]
    by_cases htilde : c = '~'
    · rw [if_pos htilde, if_pos htilde]
      exact replacePair_other (by decide) (by decide) _
    · rw [if_neg htilde, if_neg htilde]
      by_cases hslash : c = '/'
      · rw [if_pos hslash, hslash]
        exact replacePair_pair _ _ _ _
      · rw [if_neg hslash]
        exact replacePair_cons_of_ne htilde _

theorem replacePair_escaped_tildes (cs : List Char) :
    replacePair '~' '0' '~' (cs.flatMap fun c => if c = '~' then ['~', '0'] else [c]) = cs := by
  induction cs with
  | nil => rfl
  | cons c cs ih =>
    rw [List.flatMap_cons]
    by_cases htilde : c = '~'
    · rw [if_pos htilde, htilde]
      exact (replacePair_pair _ _ _ _).trans (congrArg _ ih)
    · rw [if_neg htilde]
      exact (replacePair_cons_of_ne htilde _).trans (congrArg _ ih)

theorem unescape_escape (segment : String) : unescape (escape segment).toList = segment := by
  unfold unescape escape
  rw [String.toList_ofList, replacePair_escape, replacePair_escaped_tildes, String.ofList_toList]

/-! ### Pointers -/

/-- The segments that a pointer tells: the pieces behind its slashes with their escapes undone. -/
def segmentsOf (pointer : String) : List String :=
  match pointer.toList with
  | '/' :: rest => (splitAll '/' rest).map unescape
  | _ => []

/-- **A pointer is read back**, except at the top. -/
theorem segmentsOf_pointer {p : Place} (h : p.segments ≠ []) :
    segmentsOf p.pointer = p.segments := by
  obtain ⟨first, rest, hsegments⟩ := List.exists_cons_of_ne_nil h
  have hempty : p.segments.isEmpty = false := by rw [hsegments]; rfl
  have hlist : p.pointer.toList = '/' :: ((escape first).toList ++
      (rest.map fun s => (escape s).toList).flatMap ('/' :: ·)) := by
    unfold pointer
    rw [if_neg (Bool.eq_false_iff.1 hempty), hsegments, String.toList_join]
    simp [List.flatMap_map]
  have hsplit : splitAll '/' ((escape first).toList ++
      (rest.map fun s => (escape s).toList).flatMap ('/' :: ·)) =
      (first :: rest).map fun s => (escape s).toList := by
    refine splitAll_flatMap fun piece hpiece => ?_
    obtain ⟨s, -, hs⟩ : ∃ s ∈ first :: rest, (escape s).toList = piece := List.mem_map.1 hpiece
    rw [← hs]
    exact slash_notMem_escape s
  unfold segmentsOf
  rw [hlist]
  show (splitAll '/' _).map unescape = _
  rw [hsplit, hsegments, List.map_map]
  exact (List.map_congr_left fun s _ => unescape_escape s).trans (List.map_id _)

end Place

end SlotFrame
