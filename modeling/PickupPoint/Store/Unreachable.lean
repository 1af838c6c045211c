/-
A store out of reach: every operation is refused.
-/
import PickupPoint.Store.Basic

namespace PickupPoint

structure UnreachableStore where
  deriving DecidableEq

namespace UnreachableStore

def outOfReach : Error := .internal "storage is out of reach"

def refuse {α : Type} : Access UnreachableStore α := fun s => (.error outOfReach, s)

instance : OrderStore UnreachableStore where
  order _ := refuse
  orders := refuse
  history _ _ := refuse
  orderHistory _ := refuse
  begin _ := refuse
  commit _ := refuse
  rollback start _ := start
  savepoint := refuse
  release _ := refuse
  rollbackTo start _ := start
  find _ := refuse
  insert _ _ := refuse
  update _ _ := refuse
  delete _ := refuse
  appendHistory _ _ _ := refuse
  appendEvent _ := refuse

end UnreachableStore
end PickupPoint
