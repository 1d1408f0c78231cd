/-!
# Looking along a list

A reader may look at a position relative to where it stands. A position past the end holds
nothing; one before the start counts from the end, as long as the list reaches that far back.
-/

namespace CallScript

/-- What a look at a position of a list gives. -/
inductive Glance (α : Type) where
  /-- The position is past the end. -/
  | nothing
  /-- The item at the position. -/
  | item (a : α)
  /-- The position is farther before the start than the list is long. -/
  | outOfRange

/-- Looks at a position of a list. -/
def glance {α : Type} (items : List α) (position : Int) : Glance α :=
  let size : Int := items.length
  if size ≤ position then .nothing
  else
    let index := if position < 0 then size + position else position
    match if index < 0 then none else items[index.toNat]? with
    | some a => .item a
    | none => .outOfRange

end CallScript
