import Notifkit.Workflow.Stores

/-!
# The reaper of stuck instances

One call of `reapStuckInstances` reads the instances that are running, and then takes
them one at a time: it asks for the instance's lock, and where there is none sets the
instance back to pending if it is running still. The `catch` around the loop ends it at
the first command that fails. Any of the running instances may come back from the read,
in any order.
-/

namespace Notifkit.Workflow

/-- Where a reaper stands with the first of its candidates. -/
inductive ReapPhase where
  /-- before the candidates are read -/
  | scanning
  /-- about to ask for the lock -/
  | testing
  /-- there was no lock: about to set the instance back -/
  | updating
deriving DecidableEq

/-- One call of `reapStuckInstances`. -/
structure Reap where
  candidates : List InstanceId := []
  phase : ReapPhase := .scanning
  /-- ghost: how often the candidate's lock had been taken when the reaper asked for it -/
  since : Nat := 0

/-- What a reaper does next: the running instances it reads, its next command, or a command
that fails. -/
inductive ReapChoice where
  | scan (candidates : List InstanceId)
  | proceed
  | fail
deriving DecidableEq

namespace Reap

/-- The reaper at its next candidate. -/
def next (reap : Reap) : Reap := { reap with candidates := reap.candidates.tail, phase := .testing }

/-- Ask for the lock of a candidate. -/
def test (stores : Stores) (reap : Reap) (instanceId : InstanceId) : Reap :=
  if stores.locks.get stores.clock instanceId ≠ none then reap.next
  else { reap with phase := .updating, since := stores.acquired instanceId }

/-- Set a candidate back to pending, if it is running still. -/
def update (stores : Stores) (instanceId : InstanceId) : Stores :=
  if stores.instances instanceId = some .running then
    { stores.setStatus instanceId .pending with
      runner := Function.update stores.runner instanceId none
      armed := Function.update stores.armed instanceId none
      reaped := Function.update stores.reaped instanceId true }
  else stores

/-- A step of a reaper. -/
def step (stores : Stores) (reap : Reap) (choice : ReapChoice) : Option (Stores × Reap) :=
  match reap.phase, reap.candidates, choice with
  | .scanning, _, .scan candidates =>
    if candidates.Nodup ∧ ∀ instanceId ∈ candidates, stores.instances instanceId = some .running then
      some (stores, { reap with candidates := candidates, phase := .testing })
    else none
  | .testing, instanceId :: _, .proceed => some (stores, reap.test stores instanceId)
  | .updating, instanceId :: _, .proceed => some (update stores instanceId, reap.next)
  | _, _, .fail => some (stores, { reap with candidates := [], phase := .testing })
  | _, _, _ => none

end Reap

end Notifkit.Workflow
