import AudioServer.Db.Models
import AudioServer.Foundations.Outcomes

/-! Allowlisted processing activity events. -/

namespace AudioServer.Activity.Repository

open AudioServer.Foundations.Outcomes AudioServer.Foundations.Strings AudioServer.Db.Models

/-- The key `append_activity` looks an event up by. -/
def SameEvent (a b : ProcessingActivity) : Prop :=
  a.jobId = b.jobId ∧ a.attemptCount = b.attemptCount ∧ a.eventType = b.eventType ∧ a.stage = b.stage

instance (a b : ProcessingActivity) : Decidable (SameEvent a b) := inferInstanceAs (Decidable (_ ∧ _))

def bounded (event : ProcessingActivity) : ProcessingActivity :=
  { event with
    errorCode := event.errorCode.map (boundedIdentifier · "processing_error".toList)
    errorType := event.errorType.map (boundedIdentifier · "processing_error".toList)
    safeMessage := event.safeMessage.map boundedMessage }

def appendActivity (db : Database) (event : ProcessingActivity) : Except Exn Database := do
  require (1 ≤ event.maxAttempts) (.valueError "invalid processing activity attempt counts")
  require (event.retryScheduled → event.nextAttemptAt.isSome)
    (.valueError "a scheduled retry requires its next attempt time")
  if db.activity.any (SameEvent event ·) then .ok db
  else .ok { db with activity := db.activity ++ [bounded event] }

end AudioServer.Activity.Repository
