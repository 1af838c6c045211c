/-
Counters of committed events by type and of refused operations by the code of their cause, and their text in the
exposition format: a family with samples has a help line, a type line and its samples in the order of their labels.
-/
import PickupPoint.Event

namespace PickupPoint

structure Metrics where
  events : EventType → Nat
  failures : ErrorCode → Nat

namespace Metrics

def empty : Metrics := ⟨fun _ => 0, fun _ => 0⟩

def countEvent (m : Metrics) (t : EventType) : Metrics :=
  { m with events := fun t' => if t' = t then m.events t' + 1 else m.events t' }

def countFailure (m : Metrics) (c : ErrorCode) : Metrics :=
  { m with failures := fun c' => if c' = c then m.failures c' + 1 else m.failures c' }

/-- a sample, once its counter has been raised -/
def sampleText (family label value : String) (count : Nat) : String :=
  if count = 0 then "" else family ++ "\x7b" ++ label ++ "=\"" ++ value ++ "\"\x7d " ++ toString count ++ "\n"

/-- a family, unless it has no samples -/
def familyText (family help : String) (samples : List String) : String :=
  let body := String.join samples
  if body.isEmpty then ""
  else "# HELP " ++ family ++ " " ++ help ++ "\n# TYPE " ++ family ++ " counter\n" ++ body

def toText (m : Metrics) : String :=
  familyText "pvz_order_events_total" "Committed order events by type"
      (EventType.all.map fun t => sampleText "pvz_order_events_total" "event_type" t.text (m.events t)) ++
    familyText "pvz_order_failures_total" "Rejected order operations by error code"
      (ErrorCode.all.map fun c => sampleText "pvz_order_failures_total" "code" c.text (m.failures c))

end Metrics
end PickupPoint
