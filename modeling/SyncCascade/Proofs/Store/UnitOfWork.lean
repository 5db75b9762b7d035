import SyncCascade.Proofs.Store.Edits
import SyncCascade.Proofs.Store.Insertion
import SyncCascade.Store.Session

/-!
# Failed calls of a unit of work

A call that fails leaves the copy of its unit of work as it was. So a unit of work whose client goes on
after failures comes to the same as one that makes only the calls that succeed: the replies to these,
the outcome of the commit and the database afterwards are the same.
-/

namespace SyncCascade

/-- A call, the time at which it is made, and its reply. -/
structure Answered where
  call : Timestamp × StoreCall
  reply : Except Failure call.2.Reply

def Answered.succeeded (a : Answered) : Bool :=
  match a.reply with
  | .ok _ => true
  | .error _ => false

namespace Session

/-- The answers to calls one after another, and the session after them. -/
def calls (s : Session) : List (Timestamp × StoreCall) → List Answered × Session
  | [] => ([], s)
  | c :: rest =>
    let (reply, s') := s.call c.1 c.2
    let (answers, s'') := s'.calls rest
    (⟨c, reply⟩ :: answers, s'')

/-- A unit of work that makes the calls, whatever they are answered, and then commits. -/
def unitOfWork (s : Session) (cs : List (Timestamp × StoreCall)) :
    List Answered × Except Failure Unit × Session :=
  let (answers, s') := s.start.calls cs
  (answers, s'.commit)

variable (s : Session)

theorem run_perform_visible (now : Timestamp) (c : StoreCall) :
    (Edit.perform now c).run s.visible = ((s.call now c).1, (s.call now c).2.visible) := by
  rw [Edit.run_perform, call]
  cases s.visible.apply now c with
  | error f => rfl
  | ok out => rfl

theorem call_of_error {now : Timestamp} {c : StoreCall} {e : Failure}
    (h : (s.call now c).1 = .error e) : (s.call now c).2 = s := by
  unfold call at h ⊢
  split at h
  next => cases h
  next => rfl

theorem calls_cons (c : Timestamp × StoreCall) (rest : List (Timestamp × StoreCall)) :
    s.calls (c :: rest) = (⟨c, (s.call c.1 c.2).1⟩ :: ((s.call c.1 c.2).2.calls rest).1,
      ((s.call c.1 c.2).2.calls rest).2) := rfl

/-- Calls that failed can be left out. -/
theorem calls_succeeded (cs : List (Timestamp × StoreCall)) :
    s.calls (((s.calls cs).1.filter Answered.succeeded).map Answered.call) =
      ((s.calls cs).1.filter Answered.succeeded, (s.calls cs).2) := by
  induction cs generalizing s with
  | nil => rfl
  | cons c rest ih =>
    have hrest := ih (s.call c.1 c.2).2
    rw [calls_cons]
    cases hreply : (s.call c.1 c.2).1 with
    | ok reply =>
      rw [List.filter_cons_of_pos rfl, List.map_cons, calls_cons, hrest, hreply]
    | error e =>
      rw [List.filter_cons_of_neg Bool.false_ne_true]
      rw [s.call_of_error hreply] at hrest ⊢
      exact hrest

/-- An insertion of entities in a unit of work, which gains all of them or is refused for the first that
is unfit. -/
theorem call_insertEntities (now : Timestamp) (es : List Entity) :
    match s.call now (.insertEntities es) with
    | (.ok _, s') => s.visible.AllFit es ∧ s.visible.Gains es s'.visible
    | (.error f, s') => s' = s ∧ ∃ before e after, es = before ++ e :: after ∧
        s.visible.AllFit before ∧ s.visible.Fault before e f := by
  have hcases := s.visible.insertEntities_cases es
  have happly : s.visible.apply now (.insertEntities es) =
      (s.visible.insertEntities es).map fun db' => ((), db') := rfl
  unfold call
  rw [happly]
  cases hinsert : s.visible.insertEntities es with
  | ok db' =>
    rw [hinsert] at hcases
    exact hcases
  | error f =>
    rw [hinsert] at hcases
    exact ⟨rfl, hcases⟩

/-- In a unit of work a call that fails leaves no trace: performed in place it ends with the copy it
began with. Without the calls that failed the unit of work answers the others in the same way, and its
commit and the session after it are the same. A list of entities is gained as a whole, or it is refused
for the first entity that is unfit, which happens exactly if one of them is. -/
theorem failures_leave_no_trace :
    (∀ now c, (Edit.perform now c).run s.visible = ((s.call now c).1, (s.call now c).2.visible) ∧
      ∀ e, ((Edit.perform now c).run s.visible).1 = .error e →
        ((Edit.perform now c).run s.visible).2 = s.visible ∧ (s.call now c).2 = s) ∧
    (∀ cs,
      let succeeded := (s.unitOfWork cs).1.filter Answered.succeeded
      s.unitOfWork (succeeded.map Answered.call) = (succeeded, (s.unitOfWork cs).2)) ∧
    ∀ now es,
      (match s.call now (.insertEntities es) with
        | (.ok _, s') => s.visible.Gains es s'.visible
        | (.error f, s') => s' = s ∧ ∃ before e after, es = before ++ e :: after ∧
            s.visible.AllFit before ∧ s.visible.Fault before e f) ∧
      ((∃ f, (s.call now (.insertEntities es)).1 = .error f) ↔
        ∃ before e after, es = before ++ e :: after ∧ s.visible.Unfit before e) := by
  refine ⟨fun now c => ⟨s.run_perform_visible now c, fun e he => ?_⟩, fun cs => ?_, fun now es => ?_⟩
  · rw [s.run_perform_visible] at he ⊢
    have hsame := s.call_of_error he
    exact ⟨congrArg visible hsame, hsame⟩
  · have hcalls := s.start.calls_succeeded cs
    unfold unitOfWork
    dsimp only
    rw [hcalls]
  · have hcases := s.call_insertEntities now es
    generalize s.call now (.insertEntities es) = out at hcases
    obtain ⟨r | r, s'⟩ := out
    · obtain ⟨hsame, before, e, after, hes, hbefore, hfault⟩ := hcases
      exact ⟨⟨hsame, before, e, after, hes, hbefore, hfault⟩,
        iff_of_true ⟨r, rfl⟩ ⟨before, e, after, hes, hfault.unfit⟩⟩
    · obtain ⟨hfit, hgains⟩ := hcases
      refine ⟨hgains, iff_of_false ?_ ?_⟩
      · rintro ⟨f, hf⟩
        cases hf
      · rintro ⟨before, e, after, hes, hunfit⟩
        exact hfit hes hunfit

end Session

end SyncCascade
