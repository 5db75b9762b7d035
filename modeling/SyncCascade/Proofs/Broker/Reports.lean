import SyncCascade.Queue

/-!
# Reports of pushes

A push handles its jobs one after another and reports of each whether it was new. So its report is
put together from the reports of its jobs, in their order.
-/

namespace SyncCascade

attribute [ext] PushReport

namespace PushReport

instance : Append PushReport where
  append r r' := ⟨r.enqueued ++ r'.enqueued, r.deduplicated ++ r'.deduplicated⟩

def single (new : Bool) (id : String) : PushReport := if new then ⟨[id], []⟩ else ⟨[], [id]⟩

variable (r r' r'' : PushReport)

@[simp] theorem enqueued_append : (r ++ r').enqueued = r.enqueued ++ r'.enqueued := rfl

@[simp] theorem deduplicated_append : (r ++ r').deduplicated = r.deduplicated ++ r'.deduplicated := rfl

theorem append_empty : r ++ empty = r := PushReport.ext (List.append_nil _) (List.append_nil _)

theorem append_assoc : r ++ r' ++ r'' = r ++ (r' ++ r'') :=
  PushReport.ext (List.append_assoc ..) (List.append_assoc ..)

end PushReport

theorem Queue.publish_cons {σ β : Type} (B : Broker β) (options : LaneOptions) (lane : Lane)
    (report : PushReport) (job : JobPayload) (rest : List JobPayload) :
    (publish B options lane report (job :: rest) : Action σ β PushReport) =
      enqueue B options lane job maxRounds >>= fun new =>
        publish B options lane (report ++ .single new job.id) rest := by
  have hreport : ∀ new, (if new = true then
        publish B options lane { report with enqueued := report.enqueued ++ [job.id] } rest
      else publish B options lane { report with deduplicated := report.deduplicated ++ [job.id] } rest) =
        (publish B options lane (report ++ .single new job.id) rest : Action σ β PushReport) := by
    intro new
    cases new with
    | true =>
      exact congrArg (publish B options lane · rest) (PushReport.ext rfl (List.append_nil _).symm)
    | false =>
      exact congrArg (publish B options lane · rest) (PushReport.ext (List.append_nil _).symm rfl)
  exact congrArg (enqueue B options lane job maxRounds >>= ·) (funext hreport)

end SyncCascade
