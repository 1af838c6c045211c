/-
Transactions as data. A script is a list of calls inside one transaction, with savepoints nested to any depth; every
scope ends with success, a refusal or a panic once its steps are through. A step that fails ends its scope only if it is
strict. Running a script gives a log of what each step answered.
-/
import PickupPoint.Service.Transaction

namespace PickupPoint

/-- how a scope ends -/
abbrev Ending := Except Halt Unit

inductive ScriptCall where
  | find (id : Nat)
  | insert (o : Order)
  | update (o : Order)
  | delete (id : Nat)
  | appendHistory (id : Nat) (status : Status)
  | appendEvent (eventType : EventType) (o : Order)

inductive ScriptStep where
  | call (c : ScriptCall) (strict : Bool)
  | savepoint (steps : List ScriptStep) (ending : Ending) (strict : Bool)

/-- what a step answered; a savepoint logs its own steps and then how it ended -/
inductive LogEntry where
  | order (answer : Except Error Order)
  | done (answer : Except Error Unit)
  | scope (entries : List LogEntry)

namespace Script

open Act

variable {σ κ : Type} [OrderStore σ]

/-- what a call answers: an order, or that it is done -/
def callAct : ScriptCall → Act σ κ (Option Order)
  | .find id => do
    return some (← findOrder id)
  | .insert o => do
    insertOrder o
    return none
  | .update o => do
    updateOrder o
    return none
  | .delete id => do
    deleteOrder id
    return none
  | .appendHistory id status => do
    PickupPoint.appendHistory id status
    return none
  | .appendEvent t o => do
    PickupPoint.appendEvent t (.client o.userId) o o.status
    return none

/-- the entry of a call and how the call ended, a panic leaving none -/
def runCall (c : ScriptCall) (s : Site σ κ) : (List LogEntry × Ending) × Site σ κ :=
  match callAct c s with
  | (.ok (some o), s) => (([.order (.ok o)], .ok ()), s)
  | (.ok none, s) => (([.done (.ok ())], .ok ()), s)
  | (.error (.error e), s) =>
    match c with
    | .find _ => (([.order (.error e)], .error (.error e)), s)
    | _ => (([.done (.error e)], .error (.error e)), s)
  | (.error (.panic text), s) => (([], .error (.panic text)), s)

/-- the entries of a savepoint with a log and an ending -/
def savepointEntries (log : Option (List LogEntry)) : Ending → List LogEntry
  | .ok () => [.scope (log.getD []), .done (.ok ())]
  | .error (.error e) => [.scope (log.getD []), .done (.error e)]
  | .error (.panic _) => []

/-- whether a scope goes on after a step -/
def goesOn (strict : Bool) : Ending → Bool
  | .ok () => true
  | .error (.error _) => !strict
  | .error (.panic _) => false

mutual

def runStep : ScriptStep → Site σ κ → (List LogEntry × Ending) × Site σ κ
  | .call c _, s => runCall c s
  | .savepoint steps ending _, s =>
    let ((g, r), s) := inSavepoint (fun s => runSteps steps ending s) (·.2) s
    ((savepointEntries (g.map (·.1)) r, r), s)

/-- the log of a scope and how it ended -/
def runSteps : List ScriptStep → Ending → Site σ κ → (List LogEntry × Ending) × Site σ κ
  | [], ending, s => (([], ending), s)
  | step :: rest, ending, s =>
    let strict := match step with
      | .call _ strict => strict
      | .savepoint _ _ strict => strict
    let ((entries, r), s) := runStep step s
    if goesOn strict r then
      let ((more, r), s) := runSteps rest ending s
      ((entries ++ more, r), s)
    else ((entries, r), s)

end

/-- a script as one transaction -/
def run (steps : List ScriptStep) (ending : Ending) (s : Site σ κ) : (List LogEntry × Ending) × Site σ κ :=
  let ((g, r), s) := inTransaction (runSteps steps ending) (·.2) s
  (((g.map (·.1)).getD [], r), s)

end Script
end PickupPoint
