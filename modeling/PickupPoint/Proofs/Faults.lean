/-
What arrivals do to faults. An arrival changes only what the faults at its point have seen, so what a point has in
store is the same after arrivals elsewhere (`waiting_arrive`), and the effects that can ever show are the ones that
were set (`effects_arrive`, `effect_mem`).
-/
import PickupPoint.Fault

namespace PickupPoint.Fault

/-- the effects that faults may have, whatever they have seen -/
def effects (fs : List Fault) : List Effect := fs.map (·.effect)

/-- the faults at a point, with what they have seen -/
def waiting (p : Point) (after : Bool) (fs : List Fault) : List Fault := fs.filter (·.isAt p after)

/-- no fault ends a call in a panic -/
def Calm (fs : List Fault) : Prop := ∀ text, Effect.panic text ∉ effects fs

/-- the next arrival at a point is refused -/
def Refuses (p : Point) (fs : List Fault) : Prop := ∃ e, (arrive p false fs).1 = some (.error e)

/-- Where no faults were set and no effects have come, none are set. -/
theorem none_of_effects {fs fs' : List Fault} (h : effects fs' = effects fs) (hs : fs = []) : fs' = [] := by
  rw [hs] at h
  exact List.map_eq_nil_iff.1 h

theorem calm_of_none {fs : List Fault} (h : fs = []) : Calm fs := by
  intro text
  rw [h]
  exact List.not_mem_nil

theorem notice_effect (f : Fault) (p : Point) (after : Bool) : (f.notice p after).effect = f.effect := by
  unfold notice; split <;> rfl

theorem notice_isAt (f : Fault) (p q : Point) (after b : Bool) : (f.notice p after).isAt q b = f.isAt q b := by
  unfold notice; split <;> rfl

@[simp]
theorem arrive_nil (p : Point) (after : Bool) : arrive p after [] = (none, []) := rfl

@[simp]
theorem effects_arrive (p : Point) (after : Bool) (fs : List Fault) : effects (arrive p after fs).2 = effects fs := by
  simp only [effects, arrive, List.map_map]
  exact List.map_congr_left fun f _ => notice_effect f p after

/-- what an arrival meets is the effect of a fault that was set -/
theorem effect_mem {p : Point} {after : Bool} {fs : List Fault} {e : Effect} (h : (arrive p after fs).1 = some e) :
    e ∈ effects fs := by
  obtain ⟨f, hf, he⟩ := List.exists_of_findSome?_eq_some h
  unfold effect? at he
  split at he
  · cases he; exact List.mem_map_of_mem hf
  · cases he

/-- An arrival at one point changes nothing of what another has in store. -/
theorem waiting_arrive {p q : Point} {after b : Bool} (h : ¬ (p = q ∧ after = b)) (fs : List Fault) :
    waiting q b (arrive p after fs).2 = waiting q b fs := by
  simp only [waiting, arrive]
  induction fs with
  | nil => rfl
  | cons f fs ih =>
    rw [List.map_cons, List.filter_cons, List.filter_cons, notice_isAt, ih]
    split
    · rename_i hq
      have hp : f.isAt p after = false := by
        simp only [isAt, decide_eq_true_eq, decide_eq_false_iff_not] at hq ⊢
        intro hp; exact h ⟨hp.1.symm.trans hq.1, hp.2.symm.trans hq.2⟩
      simp [notice, hp]
    · rfl

/-- What an arrival meets depends on the faults at its point alone. -/
theorem arrive_waiting (p : Point) (after : Bool) (fs : List Fault) :
    (arrive p after (waiting p after fs)).1 = (arrive p after fs).1 := by
  simp only [waiting, arrive]
  induction fs with
  | nil => rfl
  | cons f fs ih =>
    rw [List.filter_cons, List.findSome?_cons]
    split
    · rw [List.findSome?_cons, ih]
    · rename_i hf
      rw [ih]; simp [effect?, hf]

theorem refuses_congr {p : Point} {fs gs : List Fault} (h : waiting p false gs = waiting p false fs) :
    Refuses p gs ↔ Refuses p fs := by
  unfold Refuses; rw [← arrive_waiting p false gs, h, arrive_waiting]

end PickupPoint.Fault
