import SyncCascade.Redis.Client

/-!
# What a client of Redis sends

Any link can be recorded: beside its state stand the requests that it carried, and nothing else changes.
A call that asks for one answer sends one request, unless it asks for a time that does not fit its word.
Where the server does not have its script, the script and the same request follow; so every script call
that reaches the server has the same arguments.
-/

namespace SyncCascade.Redis

/-- The link with what it carried written down, the first request first. -/
def Link.recorded {ρ : Type} (L : Link ρ) : Link (ρ × List Request) where
  send r s := ((L.send r s.1).1, (L.send r s.1).2, s.2 ++ [r])
  hangUp s := (L.hangUp s.1, s.2)

namespace Client

variable {ρ α : Type} (L : Link ρ)

def sent (r : Request) (s : ρ) : List Request :=
  match r.script? with
  | some script => if (answer L r s).1.asksForScript then [r, .load script, r] else [r]
  | none => [r]

theorem answer_recorded (r : Request) (s : ρ) (before : List Request) :
    answer L.recorded r (s, before) = ((answer L r s).1, (answer L r s).2, before ++ [r]) := by
  unfold answer Link.recorded
  dsimp only
  split <;> rfl

theorem answerOnceLoaded_recorded (r : Request) (s : ρ) (before : List Request) :
    answerOnceLoaded L.recorded r (s, before) =
      ((answerOnceLoaded L r s).1, (answerOnceLoaded L r s).2, before ++ sent L r s) := by
  unfold answerOnceLoaded sent
  rw [answer_recorded]
  cases hscript : r.script? with
  | none => rfl
  | some script =>
    by_cases hasks : (answer L r s).1.asksForScript
    · simp [hasks, answer_recorded]
    · simp [hasks]

theorem ask_recorded (r : Request) (read : Reply → Option α) (s : ρ) (before : List Request) :
    ask L.recorded r read (s, before) =
      ((ask L r read s).1, (ask L r read s).2, before ++ sent L r s) := by
  unfold ask
  rw [answerOnceLoaded_recorded]

/-- Over every link the call sends the request, unless the program stops in it, and recording it
changes nothing else. -/
def Sends (keyPrefix : String) (clock : Clock) (c : BrokerCall) (r : Request) : Prop :=
  ∀ {ρ : Type} (L : Link ρ) (s : ρ) (before : List Request),
    call L.recorded keyPrefix clock c (s, before) =
      ((call L keyPrefix clock c s).1, (call L keyPrefix clock c s).2,
        before ++ if isTimely clock c then sent L r s else [])

section Calls

variable (keyPrefix : String) (clock : Clock)

theorem sends_of_exchange {c : BrokerCall} {r : Request}
    (h : ∀ {ρ : Type} (L : Link ρ) (s : ρ) (before : List Request),
      exchange L.recorded keyPrefix clock c (s, before) =
        ((exchange L keyPrefix clock c s).1, (exchange L keyPrefix clock c s).2, before ++ sent L r s)) :
    Sends keyPrefix clock c r := by
  intro ρ L s before
  unfold call
  split
  · exact h L s before
  · rw [List.append_nil]

variable (lane : Lane)

theorem sends_add (job : JobPayload) (options : LaneOptions) (delay : Timespan) :
    Sends keyPrefix clock (.add lane job options delay)
      (addRequest keyPrefix clock lane job options delay) := by
  refine sends_of_exchange keyPrefix clock fun L s before => ?_
  simp only [exchange, ask_recorded]
  rcases ask L (addRequest keyPrefix clock lane job options delay) Reply.int? s with ⟨e | n, t⟩ <;> rfl

theorem sends_defer (id : String) (delay : Timespan) :
    Sends keyPrefix clock (.defer lane id delay) (deferRequest keyPrefix clock lane id delay) := by
  refine sends_of_exchange keyPrefix clock fun L s before => ?_
  simp only [exchange, ask_recorded]
  rcases ask L (deferRequest keyPrefix clock lane id delay) Reply.int? s with ⟨e | n, t⟩ <;> rfl

theorem sends_claim (lease : Timespan) :
    Sends keyPrefix clock (.claim lane lease) (claimRequest keyPrefix clock lane lease) := by
  refine sends_of_exchange keyPrefix clock fun L s before => ?_
  simp only [exchange, ask_recorded]
  rcases ask L (claimRequest keyPrefix clock lane lease) Reply.fields? s with ⟨e | _ | _, t⟩ <;> rfl

end Calls

def steadyLink (answers : Request → Reply) : Link Unit where
  send r s := (answers r, s)
  hangUp s := s

def silentLink : Link Unit := steadyLink fun _ => .nil

theorem sent_silentLink (r : Request) : sent silentLink r () = [r] := by
  unfold sent
  cases r.script? <;> rfl

theorem Sends.unique {keyPrefix : String} {clock : Clock} {c : BrokerCall} {r r' : Request}
    (h : Sends keyPrefix clock c r) (h' : Sends keyPrefix clock c r')
    (htimely : isTimely clock c = true) : r = r' := by
  have heq := (h silentLink () []).symm.trans (h' silentLink () [])
  simpa [sent_silentLink, htimely] using heq

end Client

end SyncCascade.Redis
