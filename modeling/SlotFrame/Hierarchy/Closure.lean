import SlotFrame.Fault
import SlotFrame.Data.Table

/-! # Closures over hierarchies

A hierarchy says which names stand directly above a name, or why it cannot say. `closure?` collects
all that is reachable: the frontier is a stack, a name enters the result where it is first met, and
the names met together are expanded from last to first, so mixins are explored before the ancestors
of the parent that stands in front of them. `acyclic?` searches depth-first for a way back: it marks
every name that it comes to, and those on the path lie on a stack with what is left above them.

Both take the number of names that they may expand; `none` says that it was not enough. A
`Hierarchy` carries a number that always is. -/

namespace SlotFrame

/-- A search that may stop short of an outcome. -/
abbrev Bounded := ExceptT Fault Option

namespace Bounded

/-- A search that stopped short. -/
def exhausted {α : Type} : Bounded α := ExceptT.mk none

/-- An outcome within a search. -/
def lift {α : Type} (r : Result α) : Bounded α := ExceptT.mk (some r)

end Bounded

/-- What stands directly above a name. -/
abbrev Above := String → Result (List String)

/-! ### Reachable names -/

/-- Appends the names that are not there yet, in order. -/
def addNames (found names : List String) : List String :=
  names.foldl (fun found n => if n ∈ found then found else found ++ [n]) found

/-- Expands the stack of names that are still to be visited, top first. -/
def closureFrom (above : Above) :
    Nat → List String → List String → List String → Bounded (List String)
  | limit, visited, found, todo =>
    match todo.dropWhile (· ∈ visited), limit with
    | [], _ => return found
    | _ :: _, 0 => Bounded.exhausted
    | n :: rest, limit + 1 => do
      let names ← Bounded.lift (above n)
      let fresh := names.filter (· ∉ n :: visited)
      closureFrom above limit (n :: visited) (addNames found fresh) (fresh.reverse ++ rest)

/-- The names reachable from a name, with or without itself. -/
def closure? (limit : Nat) (above : Above) (start : String) (reflexive : Bool) :
    Bounded (List String) :=
  closureFrom above limit [] (if reflexive then [start] else []) [start]

/-! ### Ways back -/

/-- What a search for a way back knows of a name that it has come to. -/
inductive Mark where
  | onPath
  | done
  deriving DecidableEq, Repr, Inhabited

/-- How far a search for a way back has come. -/
structure PathSearch where
  marks : Table Mark := ∅
  /-- The names on the path, the last one first, with those above each that are still to be looked
  at. -/
  stack : List (String × List String) := []
  deriving Repr, Inhabited

namespace PathSearch

/-- Puts a name on the path. -/
def enter (s : PathSearch) (n : String) (names : List String) : PathSearch :=
  ⟨s.marks.insert n .onPath, (n, names) :: s.stack⟩

/-- The names on the path, the first one first. -/
def path (s : PathSearch) : List String := (s.stack.map Prod.fst).reverse

/-- The path from a name on, and the name once more. -/
def wayBack (s : PathSearch) (n : String) : List String :=
  s.path.drop ((s.path.findIdx? (· = n)).getD 0) ++ [n]

/-- Looks at the names on top of the stack until one is not done, and answers it. A name is done
when there is nothing left to look at above it, and leaves the path. -/
def advance (marks : Table Mark) : List (String × List String) → Option (String × PathSearch)
  | [] => none
  | (n, names) :: stack => match names.dropWhile fun p => marks.get? p = some .done with
    | [] => advance (marks.insert n .done) stack
    | p :: names => some (p, ⟨marks, (n, names) :: stack⟩)

/-- Goes on with the next name that is not done: the search ends when there is none, and fails when
it is on the path. -/
def goOn (s : PathSearch) (kind : ElementKind) (expand : PathSearch → String → Bounded Unit) :
    Bounded Unit :=
  match advance s.marks s.stack with
  | none => return ()
  | some (p, s) => match s.marks.get? p with
    | some _ => Bounded.lift (.error (.cyclic kind (s.wayBack p)))
    | none => expand s p

end PathSearch

/-- Puts a name without a mark on the path, and goes on with what stands above it. -/
def acyclicFrom (kind : ElementKind) (above : Above) : Nat → PathSearch → String → Bounded Unit
  | 0, _, _ => Bounded.exhausted
  | limit + 1, s, n => do
    let names ← Bounded.lift (above n)
    (s.enter n names).goOn kind (acyclicFrom kind above limit)

/-- Fails with the first way back that is reachable from a name. -/
def acyclic? (limit : Nat) (kind : ElementKind) (above : Above) (start : String) : Bounded Unit :=
  acyclicFrom kind above limit {} start

/-! ### Hierarchies -/

/-- A hierarchy of elements of one kind. -/
structure Hierarchy where
  kind : ElementKind
  above : Above
  /-- A number that no search needs more expansions than. -/
  size : Nat

namespace Hierarchy

/-- The outcome of a search that is never exhausted. -/
def settle {α : Type} (search : Bounded α) : Result α :=
  match search.run with
  | some r => r
  | none => .error (.other "hierarchy is larger than its size")

/-- All names reachable from a name. -/
def closure (h : Hierarchy) (start : String) (reflexive : Bool) : Result (List String) :=
  settle (closure? h.size h.above start reflexive)

/-- Whether no cycle is reachable from a name. -/
def acyclic (h : Hierarchy) (start : String) : Result Unit :=
  settle (acyclic? h.size h.kind h.above start)

/-- The closure of a name from which no cycle is reachable. -/
def ancestors (h : Hierarchy) (start : String) (reflexive : Bool) : Result (List String) := do
  h.acyclic start
  h.closure start reflexive

/-- A hierarchy written down as a table. A name without an entry has nothing above it, or is unknown
if the table is strict. -/
def ofTable (kind : ElementKind) (strict : Bool) (t : Table (List String)) : Hierarchy where
  kind
  above n := match t.get? n with
    | some names => .ok names
    | none => if strict then .error (.unresolved kind n none) else .ok []
  size := t.size + t.values.flatten.length + 1

end Hierarchy

end SlotFrame
