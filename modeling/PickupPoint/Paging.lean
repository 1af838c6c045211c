/-
Parts of a list: a page of a given size, the last entries, and the entries after a cursor.
-/
namespace PickupPoint

variable {α : Type}

/-- the page with a number counted from zero; past the end it is empty -/
def pageOf (items : List α) (page limit : Nat) : List α := (items.drop (page * limit)).take limit

/-- the last `n` entries, or all for `n` zero -/
def lastOf (items : List α) (n : Nat) : List α := if n = 0 then items else items.drop (items.length - n)

/-- The first `limit` entries with a key above the cursor, from items in ascending order of keys, and the cursor after
them. A cursor of zero starts at the front, and the cursor after no entries is zero. -/
def scrollFrom (key : α → Nat) (items : List α) (cursor limit : Nat) : List α × Nat :=
  let rest := if cursor = 0 then items else items.dropWhile (key · ≤ cursor)
  let page := rest.take limit
  (page, (page.getLast?.map key).getD 0)

end PickupPoint
