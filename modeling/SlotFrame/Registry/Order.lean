import SlotFrame.Registry.Basic

/-! # Orders of elements

Elements come in the order in which they were declared, by their names, or by their ranks. -/

namespace SlotFrame

/-- An order of elements. -/
inductive ElementOrder where
  | declared
  /-- By the code points of the names. -/
  | byName
  /-- By ascending rank; elements without a rank come last, as they were declared. -/
  | byRank
  deriving DecidableEq, Repr

/-- Whether a rank may stand before another. -/
def rankLe : Option Int → Option Int → Bool
  | some a, some b => a ≤ b
  | some _, none => true
  | none, some _ => false
  | none, none => true

/-- Whether an entry may stand before another. -/
def ElementOrder.le {α : Type} [Element α] (o : ElementOrder) (a b : String × α) : Bool :=
  match o with
  | declared => true
  | byName => ! decide (b.1 < a.1)
  | byRank => rankLe (Element.metadata a.2).rank (Element.metadata b.2).rank

/-- Brings elements into an order. -/
def Table.arrange {α : Type} [Element α] (t : Table α) (o : ElementOrder) : Table α :=
  match o with
  | .declared => t
  | _ => t.sortBy o.le

end SlotFrame
