/-
Orders by id: a list in which every id is larger than the one before it, so that each is there at most once.
-/
import PickupPoint.Order.Basic

namespace PickupPoint

structure OrderTable where
  rows : List Order
  ascending : rows.Pairwise (·.id < ·.id)
  deriving DecidableEq

namespace OrderTable

@[ext]
theorem ext {t u : OrderTable} (h : t.rows = u.rows) : t = u := by
  cases t; cases u; cases h; rfl

def empty : OrderTable := ⟨[], List.Pairwise.nil⟩

def find? (t : OrderTable) (id : Nat) : Option Order := t.rows.find? (·.id = id)

/-- the rows with one more, in place of a row with its id -/
def putRow (o : Order) : List Order → List Order
  | [] => [o]
  | x :: rest =>
    if o.id < x.id then o :: x :: rest
    else if x.id < o.id then x :: putRow o rest
    else o :: rest

theorem mem_putRow {o x : Order} : ∀ {rows : List Order}, x ∈ putRow o rows → x = o ∨ x ∈ rows
  | [], h => by simpa [putRow] using h
  | y :: rest, h => by
    rw [putRow] at h
    split at h
    · simpa using h
    · split at h
      · rcases List.mem_cons.1 h with rfl | h
        · simp
        · rcases mem_putRow h with rfl | h <;> simp_all
      · rcases List.mem_cons.1 h with rfl | h <;> simp_all

theorem ascending_putRow (o : Order) :
    ∀ {rows : List Order}, rows.Pairwise (·.id < ·.id) → (putRow o rows).Pairwise (·.id < ·.id)
  | [], _ => by simp [putRow]
  | x :: rest, h => by
    have ⟨hx, hrest⟩ := List.pairwise_cons.1 h
    rw [putRow]
    split
    case isTrue hlt =>
      refine List.pairwise_cons.2 ⟨fun y hy => ?_, h⟩
      rcases List.mem_cons.1 hy with rfl | hy
      · exact hlt
      · exact Nat.lt_trans hlt (hx y hy)
    case isFalse hge =>
      split
      case isTrue hgt =>
        refine List.pairwise_cons.2 ⟨fun y hy => ?_, ascending_putRow o hrest⟩
        rcases mem_putRow hy with rfl | hy
        · exact hgt
        · exact hx y hy
      case isFalse hle =>
        have heq : o.id = x.id := Nat.le_antisymm (Nat.le_of_not_lt hle) (Nat.le_of_not_lt hge)
        exact List.pairwise_cons.2 ⟨fun y hy => heq ▸ hx y hy, hrest⟩

/-- stores an order, in place of one with its id -/
def put (t : OrderTable) (o : Order) : OrderTable := ⟨putRow o t.rows, ascending_putRow o t.ascending⟩

def erase (t : OrderTable) (id : Nat) : OrderTable := ⟨t.rows.filter (·.id ≠ id), t.ascending.filter _⟩

theorem find?_put (t : OrderTable) (o : Order) (id : Nat) :
    (t.put o).find? id = if o.id = id then some o else t.find? id := by
  obtain ⟨rows, h⟩ := t
  simp only [put, find?]
  induction rows with
  | nil => by_cases ho : o.id = id <;> simp [putRow, ho]
  | cons x rest ih =>
    have ih := ih (List.pairwise_cons.1 h).2
    rw [putRow]
    split
    · by_cases ho : o.id = id <;> simp [ho]
    · split
      · by_cases hx : x.id = id
        · have : o.id ≠ id := by omega
          simp [hx, this]
        · simp [hx, ih]
      · by_cases ho : o.id = id
        · simp [ho]
        · have : x.id ≠ id := by omega
          simp [ho, this]

theorem find?_erase (t : OrderTable) (id id' : Nat) :
    (t.erase id).find? id' = if id = id' then none else t.find? id' := by
  simp only [erase, find?, List.find?_filter]
  split
  · exact List.find?_eq_none.2 fun x _ => by simp_all
  · congr 1
    funext x
    by_cases hx : x.id = id'
    · have : x.id ≠ id := by omega
      simp [hx]
      omega
    · simp [hx]

end OrderTable
end PickupPoint
