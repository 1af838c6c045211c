/-
Stores that make nothing of event ids.

`IdBlind` stores answer the same if they are the same but for event ids, and stay so, whatever ids the events have that
they are told of. The store in memory is such, and so are the tables of a database that refuses no statement: each of
their operations is `Indifferent`.
-/
import Mathlib.Data.List.Forall2
import PickupPoint.Proofs.Statements
import PickupPoint.Proofs.Tandem

namespace PickupPoint

open Act

variable {σ κ ν α : Type}

/-! ## Stores that are the same but for event ids -/

/-- the same answers on both sides, and stores that are related between transactions and inside of them -/
def Simulation.ofSame (same inside : σ → σ → Prop) : Simulation σ σ where
  rest _ := same
  work _ _ := inside
  since _ _ := inside
  time _ := True
  fits _ := True
  takes _ := True
  stores _ := True
  price a b := b = a
  told l l' := l' = l
  listed l l' := l' = l

/-- a store that makes nothing of event ids -/
class IdBlind (σ : Type) [OrderStore σ] where
  /-- the same but for event ids, between transactions -/
  Same : σ → σ → Prop
  /-- the same but for event ids, inside a transaction -/
  Inside : σ → σ → Prop
  sound : (Simulation.ofSame Same Inside).Sound

theorem Order.alike_refl (o : Order) : o.Alike (fun a b => b = a) o := ⟨rfl, rfl, rfl, rfl, rfl, rfl, rfl⟩

theorem Order.eq_of_alike {o o' : Order} (h : o.Alike (fun a b => b = a) o') : o' = o := by
  obtain ⟨h₁, h₂, h₃, h₄, h₅, h₆, h₇⟩ := h
  cases o; cases o'; cases h₁; cases h₂; cases h₃; cases h₄; cases h₅; cases h₆; cases h₇
  rfl

namespace Memory

/-- the store without event ids -/
def nameless (m : Memory) : Memory := { m with outbox := m.outbox.map Event.nameless }

def SameButIds (m n : Memory) : Prop := n.nameless = m.nameless

theorem sameButIds_iff {m n : Memory} : SameButIds m n ↔ n.orders = m.orders ∧ n.history = m.history ∧
    n.outbox.map Event.nameless = m.outbox.map Event.nameless ∧ n.historyIds = m.historyIds := by
  simp [SameButIds, nameless]

/-- The operation is answered the same on both stores, and leaves them the same but for event ids. -/
def Indifferent (op op' : Access Memory α) : Prop :=
  ∀ m n, SameButIds m n → (op' n).1 = (op m).1 ∧ SameButIds (op m).2 (op' n).2

theorem find_indifferent (id : Nat) : Indifferent (find id) (find id) := by
  intro m n h
  have orders := (sameButIds_iff.1 h).1
  refine ⟨?_, by rw [find_snd, find_snd]; exact h⟩
  unfold find
  rw [orders]
  split <;> rfl

theorem insert_indifferent (o : Order) : Indifferent (insert o) (insert o) := by
  intro m n h
  have ⟨orders, rest⟩ := sameButIds_iff.1 h
  unfold insert
  rw [orders]
  split
  · exact ⟨rfl, h⟩
  · exact ⟨rfl, sameButIds_iff.2 ⟨by simp only [seed, orders], rest⟩⟩

theorem update_indifferent (o : Order) : Indifferent (update o) (update o) := by
  intro m n h
  have ⟨orders, rest⟩ := sameButIds_iff.1 h
  unfold update
  rw [orders]
  split
  · exact ⟨rfl, sameButIds_iff.2 ⟨by simp only [seed, orders], rest⟩⟩
  · exact ⟨rfl, h⟩

theorem delete_indifferent (id : Nat) : Indifferent (delete id) (delete id) := by
  intro m n h
  have ⟨orders, rest⟩ := sameButIds_iff.1 h
  unfold delete
  rw [orders]
  split
  · exact ⟨rfl, sameButIds_iff.2 ⟨rfl, rest⟩⟩
  · exact ⟨rfl, h⟩

theorem appendHistory_indifferent (id : Nat) (status : Status) (now : Instant) :
    Indifferent (appendHistory id status now) (appendHistory id status now) := by
  intro m n h
  have ⟨orders, history, outbox, ids⟩ := sameButIds_iff.1 h
  exact ⟨rfl, sameButIds_iff.2 ⟨orders, by simp only [appendHistory, history, ids], outbox, by
    simp only [appendHistory, ids]⟩⟩

theorem appendEvent_indifferent {e e' : Event} (same : e'.nameless = e.nameless) :
    Indifferent (appendEvent e) (appendEvent e') := by
  intro m n h
  have ⟨orders, history, outbox, ids⟩ := sameButIds_iff.1 h
  exact ⟨rfl, sameButIds_iff.2 ⟨orders, history, by simp [appendEvent, outbox, same], ids⟩⟩

theorem Indifferent.moves {op op' : Access Memory Unit} (h : Indifferent op op') {m n : Memory}
    (same : SameButIds m n) :
    Match (fun _ _ m' n' => SameButIds m' n' ∧ SameButIds m' n') SameButIds (op m).1 (op' n).1 (op m).2 (op' n).2 :=
  .of_eq (h m n same).1 (fun _ _ => ⟨(h m n same).2, (h m n same).2⟩) fun _ _ => (h m n same).2

instance : IdBlind Memory where
  Same := SameButIds
  Inside := SameButIds
  sound :=
    { since_refl := id
      since_trans := fun _ h => h
      takes_fits := fun _ => trivial
      stores_fits := fun _ => trivial
      stores_taken := fun _ _ _ _ _ => trivial
      stores_after := fun _ _ _ => trivial
      order := fun h _ => .of_eq (find_indifferent _ _ _ h).1
        (fun _ _ => ⟨Order.alike_refl _, find_snd _ _, find_snd _ _⟩) fun _ _ => ⟨find_snd _ _, find_snd _ _⟩
      orders := fun h => .ok ⟨congrArg OrderTable.rows (sameButIds_iff.1 h).1, rfl, rfl⟩
      history := fun {_ m n page count} h => by
        have history := (sameButIds_iff.1 h).2.1
        refine .ok ⟨?_, rfl, rfl⟩
        show pageOf n.history.reverse page _ = pageOf m.history.reverse page _
        rw [history]
      orderHistory := fun {_ m n id} h _ => by
        have history := (sameButIds_iff.1 h).2.1
        refine .ok ⟨?_, rfl, rfl⟩
        show n.orderHistory id = m.orderHistory id
        unfold Memory.orderHistory
        rw [history]
      begin := fun h _ => .ok ⟨h, fun _ _ _ => ⟨h, fun _ _ work => .ok work⟩⟩
      savepoint := fun h => .ok ⟨h, h, fun _ _ _ => ⟨⟨h, h⟩, fun work => .ok ⟨work, work⟩⟩⟩
      find := fun h _ => .of_eq (find_indifferent _ _ _ h).1
        (fun _ _ => ⟨⟨⟨Order.alike_refl _, trivial⟩, (find_indifferent _ _ _ h).2⟩, (find_indifferent _ _ _ h).2⟩)
        fun _ _ => (find_indifferent _ _ _ h).2
      insert := fun h _ _ => (insert_indifferent _).moves h
      update := fun h _ alike _ => by
        obtain rfl := Order.eq_of_alike alike
        exact (update_indifferent _).moves h
      delete := fun h _ => (delete_indifferent _).moves h
      appendHistory := fun h _ _ => (appendHistory_indifferent _ _ _).moves h
      appendEvent := fun h same => (appendEvent_indifferent same).moves h }

end Memory

namespace Tables

def OutboxRow.nameless (r : OutboxRow) : OutboxRow := { r with payload := r.payload.nameless }

/-- no statement is refused, and the tables are the same but for event ids -/
def SameInside (t u : Tables) : Prop :=
  t.faults = [] ∧ ∃ outbox, u = { t with outbox := outbox } ∧
    outbox.map OutboxRow.nameless = t.outbox.map OutboxRow.nameless

/-- and no transaction is open -/
def SameButIds (t u : Tables) : Prop := SameInside t u ∧ t.transaction = none

/-- The operation is answered the same on both sides, and leaves tables that are the same but for event ids. -/
def Indifferent (op op' : Access Tables α) : Prop :=
  ∀ t u, SameInside t u → (op' u).1 = (op t).1 ∧ SameInside (op t).2 (op' u).2

theorem refused_indifferent (e : Error) : Indifferent (refused e : Access Tables α) (refused e) := by
  rintro t _ ⟨faults, outbox, rfl, same⟩
  exact ⟨rfl, faults, outbox, rfl, same⟩

theorem execute_indifferent {s : Statement} {effect effect' : Access Tables α} (h : Indifferent effect effect') :
    Indifferent (execute s effect) (execute s effect') := by
  rintro t u same
  have work := h t u same
  obtain ⟨faults, outbox, rfl, hb⟩ := same
  rw [execute_faultless faults, execute_faultless (t := { t with outbox := outbox }) faults]
  dsimp only [exists?]
  split_ifs
  · exact ⟨rfl, faults, outbox, rfl, hb⟩
  · split
    · exact refused_indifferent _ _ _ ⟨faults, outbox, rfl, hb⟩
    · generalize effect t = x at work ⊢
      generalize effect' { t with outbox := outbox } = y at work ⊢
      obtain ⟨_ | a, t'⟩ := x <;> obtain ⟨_, u'⟩ := y <;> obtain ⟨answer, same'⟩ := work <;> cases answer
      · exact refused_indifferent _ _ _ same'
      · exact ⟨rfl, same'⟩

theorem convert_indifferent {β : Type} {f : α → Except Error β} {op op' : Access Tables α} (h : Indifferent op op') :
    Indifferent (fun t => convert f (op t)) fun t => convert f (op' t) := by
  intro t u same
  exact ⟨congrArg (·.bind f) (h t u same).1, (h t u same).2⟩

/-- what is read without regard to the outbox -/
theorem read_indifferent {s : Statement} {f : Tables → α} (h : ∀ t outbox, f { t with outbox := outbox } = f t) :
    Indifferent (execute s fun t => (.ok (f t), t)) (execute s fun t => (.ok (f t), t)) := by
  refine execute_indifferent ?_
  rintro t _ ⟨faults, outbox, rfl, same⟩
  exact ⟨congrArg Except.ok (h t outbox), faults, outbox, rfl, same⟩

theorem select_indifferent (s : Statement) (id : Nat) : Indifferent (select s id) (select s id) := by
  intro t u same
  unfold select
  split
  · exact convert_indifferent (read_indifferent fun _ _ => rfl) t u same
  · exact ⟨rfl, same⟩

theorem onRow_indifferent (s : Statement) (id : Int) (f : List OrderRow → List OrderRow) :
    Indifferent (onRow s id f) (onRow s id f) := by
  intro t u same
  have effect : Indifferent (fun t => (.ok (t.row? id).isSome, { t with orders := f t.orders }))
      fun t => (.ok (t.row? id).isSome, { t with orders := f t.orders }) := by
    rintro t _ ⟨faults, outbox, rfl, same⟩
    exact ⟨rfl, faults, outbox, rfl, same⟩
  have done := execute_indifferent (s := s) effect t u same
  unfold onRow
  generalize execute s (fun t => (.ok (t.row? id).isSome, { t with orders := f t.orders })) t = x at done ⊢
  generalize execute s (fun t => (.ok (t.row? id).isSome, { t with orders := f t.orders })) u = y at done ⊢
  obtain ⟨_ | _ | _, t'⟩ := x <;> obtain ⟨_, u'⟩ := y <;> obtain ⟨answer, same'⟩ := done <;> cases answer <;>
    exact ⟨rfl, same'⟩

theorem addOrder_same (row : NewOrderRow) {t u : Tables} (same : SameInside t u) :
    SameInside (t.addOrder row) (u.addOrder row) := by
  obtain ⟨faults, outbox, rfl, hb⟩ := same
  obtain ⟨_, _, _, _, _, transaction, _, _, _⟩ := t
  cases transaction with
  | some started => exact ⟨faults, outbox, rfl, hb⟩
  | none => exact ⟨faults, outbox, rfl, hb⟩

theorem insert_indifferent (o : Order) : Indifferent (insert o) (insert o) := by
  intro t u same
  unfold insert
  split
  · exact ⟨rfl, same⟩
  · refine execute_indifferent ?_ t u same
    intro t u same
    have found (id : Int) : u.row? id = t.row? id := by
      obtain ⟨-, _, rfl, -⟩ := same
      rfl
    dsimp only
    rw [found]
    split
    · exact ⟨rfl, same⟩
    · exact ⟨rfl, addOrder_same _ same⟩

theorem update_indifferent (o : Order) (now : Instant) : Indifferent (update o now) (update o now) := by
  intro t u same
  unfold update
  split
  · exact onRow_indifferent _ _ _ t u same
  · exact ⟨rfl, same⟩

theorem delete_indifferent (id : Nat) : Indifferent (delete id) (delete id) := by
  intro t u same
  unfold delete
  split
  · exact onRow_indifferent _ _ _ t u same
  · exact ⟨rfl, same⟩

theorem appendHistory_indifferent (id : Nat) (status : Status) :
    Indifferent (appendHistory id status) (appendHistory id status) := by
  intro t u same
  unfold appendHistory
  split
  · exact ⟨rfl, same⟩
  · refine execute_indifferent ?_ t u same
    rintro t _ ⟨faults, outbox, rfl, same⟩
    exact ⟨rfl, faults, outbox, rfl, same⟩

theorem listOrders_indifferent : Indifferent listOrders listOrders :=
  convert_indifferent (read_indifferent fun _ _ => rfl)

theorem historyPage_indifferent (page count : Nat) : Indifferent (historyPage page count) (historyPage page count) :=
  convert_indifferent (read_indifferent fun _ _ => rfl)

theorem orderHistory_indifferent (id : Nat) : Indifferent (orderHistory id) (orderHistory id) := by
  intro t u same
  unfold orderHistory
  split
  · exact ⟨rfl, same⟩
  · exact convert_indifferent (read_indifferent fun _ _ => rfl) t u same

theorem appendEvent_indifferent {e e' : Event} (same : e'.nameless = e.nameless) :
    Indifferent (appendEvent e) (appendEvent e') := by
  refine execute_indifferent ?_
  rintro t _ ⟨faults, outbox, rfl, hb⟩
  obtain ⟨_, eventType, timestamp, actor, order, source⟩ := e
  obtain ⟨_, _, _, _, _, _⟩ := e'
  cases same
  exact ⟨rfl, faults, _, rfl, by simp [hb, OutboxRow.nameless, Event.nameless]⟩

/-- What is read outside of a transaction is the same. -/
theorem reads_same {A : α → α → Prop} (refl : ∀ a, A a a) {op : Access Tables α} (h : Indifferent op op)
    (reads : ∀ t, t.faults = [] → t.transaction = none → (op t).2 = t) {t u : Tables} (same : SameButIds t u) :
    Simulation.Reads A t u (op t) (op u) := by
  have left : (op t).2 = t := reads t same.1.1 same.2
  have right : (op u).2 = u := by
    obtain ⟨⟨faults, outbox, rfl, -⟩, outside⟩ := same
    exact reads _ faults outside
  exact .of_eq (h t u same.1).1 (fun a _ => ⟨refl a, left, right⟩) fun _ _ => ⟨left, right⟩

theorem Indifferent.moves {op op' : Access Tables Unit} (h : Indifferent op op') {t u : Tables}
    (same : SameInside t u) :
    Match (fun _ _ t' u' => SameInside t' u' ∧ SameInside t' u') SameInside (op t).1 (op' u).1 (op t).2 (op' u).2 :=
  .of_eq (h t u same).1 (fun _ _ => ⟨(h t u same).2, (h t u same).2⟩) fun _ _ => (h t u same).2

theorem restore_same {start start' t u : Tables} (begun : SameInside start start') (same : SameInside t u) :
    SameInside (restore start t) (restore start' u) := by
  obtain ⟨faults, outbox, rfl, hb⟩ := same
  obtain ⟨-, outbox', rfl, hb'⟩ := begun
  exact ⟨faults, outbox', rfl, hb'⟩

theorem rolledBack_same {start start' t u : Tables} (begun : SameInside start start') (same : SameInside t u) :
    SameButIds (rolledBack start t) (rolledBack start' u) := by
  obtain ⟨faults, outbox, rfl, hb⟩ := same
  obtain ⟨-, outbox', rfl, hb'⟩ := begun
  exact ⟨⟨faults, outbox', rfl, hb'⟩, rfl⟩

theorem commit_same {start start' t u : Tables} (begun : SameInside start start') (same : SameInside t u) :
    Match (fun _ _ => SameButIds) SameButIds (commit start t).1 (commit start' u).1 (commit start t).2
      (commit start' u).2 := by
  have back := rolledBack_same begun same
  obtain ⟨faults, outbox, rfl, hb⟩ := same
  rw [commit_faultless faults, commit_faultless (t := { t with outbox := outbox }) faults]
  cases haborted : t.aborted with
  | true => exact .ok back
  | false => exact .ok ⟨⟨faults, outbox, rfl, hb⟩, rfl⟩

theorem release_same {start start' t u : Tables} (begun : SameInside start start') (same : SameInside t u) :
    Match (fun _ _ => SameInside) SameInside (release start t).1 (release start' u).1 (release start t).2
      (release start' u).2 := by
  have back := restore_same begun same
  have aborted : u.aborted = t.aborted := by
    obtain ⟨-, _, rfl, -⟩ := same
    rfl
  unfold release
  rw [aborted]
  cases t.aborted with
  | true => exact .error back
  | false => exact .ok same

/-- A transaction that opens on both sides, and how it may end. -/
theorem begun_same {t u : Tables} (same : SameButIds t u) :
    Match
      (fun _ _ t₁ u₁ => SameInside t₁ u₁ ∧ ∀ t₂ u₂, SameInside t₂ u₂ →
        SameButIds (rollback t t₂) (rollback u u₂) ∧ ∀ (_ : Bool) (_ : List Nat), SameInside t₂ u₂ →
          Match (fun _ _ => SameButIds) SameButIds (commit t t₂).1 (commit u u₂).1 (commit t t₂).2 (commit u u₂).2)
      SameButIds (begin t).1 (begin u).1 (begin t).2 (begin u).2 := by
  have begun := same.1
  obtain ⟨⟨faults, outbox, rfl, hb⟩, -⟩ := same
  rw [begin_faultless faults, begin_faultless (t := { t with outbox := outbox }) faults]
  refine .ok ⟨⟨faults, outbox, rfl, hb⟩, fun t₂ u₂ same => ⟨?_, fun _ _ _ => commit_same begun same⟩⟩
  have faults₂ : u₂.faults = [] := by
    obtain ⟨faults₂, _, rfl, -⟩ := same
    exact faults₂
  rw [rollback_faultless same.1, rollback_faultless faults₂]
  exact rolledBack_same begun same

/-- A savepoint on both sides, and how it may end. -/
theorem saved_same {t u : Tables} (same : SameInside t u) :
    Match
      (fun _ _ t₁ u₁ => SameInside t₁ u₁ ∧ SameInside t₁ u₁ ∧ ∀ t₂ u₂, SameInside t₂ u₂ →
        (SameInside (restore t t₂) (restore u u₂) ∧ SameInside (restore t t₂) (restore u u₂)) ∧
        (SameInside t₂ u₂ → Match (fun _ _ t₃ u₃ => SameInside t₃ u₃ ∧ SameInside t₃ u₃)
          (fun t₃ u₃ => SameInside t₃ u₃ ∧ SameInside t₃ u₃) (release t t₂).1 (release u u₂).1 (release t t₂).2
          (release u u₂).2))
      (fun t₁ u₁ => SameInside t₁ u₁ ∧ SameInside t₁ u₁) (savepoint t).1 (savepoint u).1 (savepoint t).2
      (savepoint u).2 := by
  have saved :
      Match (fun _ _ => SameInside) SameInside (savepoint t).1 (savepoint u).1 (savepoint t).2 (savepoint u).2 :=
    .of_eq (by obtain ⟨-, _, rfl, -⟩ := same; rfl) (fun _ _ => same) fun _ _ => same
  refine saved.mono (fun _ _ t₁ u₁ same₁ => ⟨same₁, same₁, fun t₂ u₂ same₂ => ?_⟩) fun _ _ same₁ => ⟨same₁, same₁⟩
  have back := restore_same same same₂
  exact ⟨⟨back, back⟩, fun _ => (release_same same same₂).mono (fun _ _ _ _ h => ⟨h, h⟩) fun _ _ h => ⟨h, h⟩⟩

instance : IdBlind Tables where
  Same := SameButIds
  Inside := SameInside
  sound :=
    { since_refl := fun h => h
      since_trans := fun _ h => h
      takes_fits := fun _ => trivial
      stores_fits := fun _ => trivial
      stores_taken := fun _ _ _ _ _ => trivial
      stores_after := fun _ _ _ => trivial
      order := fun {_ _ _ id} h _ => reads_same Order.alike_refl (select_indifferent .selectOrder id)
        (fun _ faults outside => select_reads faults outside _ id) h
      orders := fun h => reads_same (A := fun l l' => l' = l) (fun _ => rfl) listOrders_indifferent
        (fun _ faults outside => listOrders_reads faults outside) h
      history := fun {_ _ _ page count} h => reads_same (A := fun l l' => l' = l) (fun _ => rfl) (historyPage_indifferent page count)
        (fun _ faults outside => historyPage_reads faults outside page count) h
      orderHistory := fun {_ _ _ id} h _ => reads_same (A := fun l l' => l' = l) (fun _ => rfl) (orderHistory_indifferent id)
        (fun _ faults outside => orderHistory_reads faults outside id) h
      begin := fun h _ => begun_same h
      savepoint := fun h => saved_same h
      find := fun {_ _ _ _ id} h _ => .of_eq (select_indifferent _ id _ _ h).1
        (fun _ _ => ⟨⟨⟨Order.alike_refl _, trivial⟩, (select_indifferent _ id _ _ h).2⟩,
          (select_indifferent _ id _ _ h).2⟩)
        fun _ _ => (select_indifferent _ id _ _ h).2
      insert := fun h _ _ => (insert_indifferent _).moves h
      update := fun h _ alike _ => by
        obtain rfl := Order.eq_of_alike alike
        exact (update_indifferent _ _).moves h
      delete := fun h _ => (delete_indifferent _).moves h
      appendHistory := fun h _ _ => (appendHistory_indifferent _ _).moves h
      appendEvent := fun h same => (appendEvent_indifferent same).moves h }

end Tables

end PickupPoint
