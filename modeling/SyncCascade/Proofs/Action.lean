import SyncCascade.World

/-!
# What an action ensures

`a.Ensures w R F` says that `a`, started in the world `w`, ends in a world and with a result that
satisfy `R`, or in a world and with a failure that satisfy `F`. The demands on a composed action are
those on its first part, whose results then have to meet the demands on the rest.
-/

namespace SyncCascade

instance decidableEqExcept {ε α : Type} [DecidableEq ε] [DecidableEq α] :
    DecidableEq (Except ε α)
  | .ok a, .ok b => decidable_of_iff (a = b) ⟨congrArg Except.ok, Except.ok.inj⟩
  | .error a, .error b => decidable_of_iff (a = b) ⟨congrArg Except.error, Except.error.inj⟩
  | .ok _, .error _ => isFalse nofun
  | .error _, .ok _ => isFalse nofun

/-- The world with another journal and other metrics, which no step ever looks at. -/
def World.observed {σ β : Type} (w : World σ β) (journal : Array Notice) (metrics : Metrics) :
    World σ β :=
  { w with journal := journal, metrics := metrics }

/-- What is not about the journal or the metrics. -/
def World.Blind {σ β : Type} (P : World σ β → Prop) : Prop :=
  ∀ ⦃w⦄ journal metrics, P w → P (w.observed journal metrics)

def World.Unread {σ β : Type} (P : World σ β → Prop) : Prop :=
  ∀ ⦃w⦄ journal, P w → P { w with journal := journal }

theorem World.Blind.unread {σ β : Type} {P : World σ β → Prop} (h : World.Blind P) :
    World.Unread P := fun w journal hw => h journal w.metrics hw

/-- Where the world stands: the broker, the clock, and what `P` says of the store. -/
def World.Standing {σ β : Type} (P : σ → Prop) (broker : β) (clock : Clock) (w : World σ β) : Prop :=
  P w.store ∧ w.broker = broker ∧ w.clock = clock

theorem World.standing_blind {σ β : Type} {P : σ → Prop} {broker : β} {clock : Clock} :
    World.Blind (World.Standing P broker clock) := fun _ _ _ h => h

namespace Action

variable {σ β α γ : Type} {w : World σ β}

def Ensures (a : Action σ β α) (w : World σ β) (R : α → World σ β → Prop)
    (F : Failure → World σ β → Prop) : Prop :=
  match a.run w with
  | (.ok r, w') => R r w'
  | (.error e, w') => F e w'

variable {R : α → World σ β → Prop} {F : Failure → World σ β → Prop}

theorem Ensures.mono {a : Action σ β α} {R' : α → World σ β → Prop}
    {F' : Failure → World σ β → Prop} (h : a.Ensures w R F) (hR : ∀ r w', R r w' → R' r w')
    (hF : ∀ e w', F e w' → F' e w') : a.Ensures w R' F' := by
  unfold Ensures at h ⊢
  split at h
  · exact hR _ _ h
  · exact hF _ _ h

theorem Ensures.outcome {a : Action σ β α} {P : Except Failure α → World σ β → Prop}
    (h : a.Ensures w (fun r w' => P (.ok r) w') fun e w' => P (.error e) w') :
    P (a.run w).1 (a.run w).2 := by
  unfold Ensures at h
  split at h
  next heq => rwa [heq]
  next heq => rwa [heq]

theorem Ensures.of_ok {a : Action σ β α} (h : a.Ensures w R F) {r : α} (hr : (a.run w).1 = .ok r) :
    R r (a.run w).2 := by
  have hrun : a.run w = (.ok r, (a.run w).2) := Prod.ext hr rfl
  unfold Ensures at h
  rwa [hrun] at h

theorem Ensures.of_run {a : Action σ β α} (h : a.Ensures w R F) {r : α} {w' : World σ β}
    (hrun : a.run w = (.ok r, w')) : R r w' := by
  unfold Ensures at h
  rwa [hrun] at h

theorem Ensures.of_error {a : Action σ β α} (h : a.Ensures w R F) {e : Failure}
    (he : (a.run w).1 = .error e) : F e (a.run w).2 := by
  have hrun : a.run w = (.error e, (a.run w).2) := Prod.ext he rfl
  unfold Ensures at h
  rwa [hrun] at h

theorem Ensures.exists_ok {a : Action σ β α} (h : a.Ensures w R fun _ _ => False) :
    ∃ r, (a.run w).1 = .ok r ∧ R r (a.run w).2 := by
  cases hr : (a.run w).1 with
  | ok r => exact ⟨r, rfl, h.of_ok hr⟩
  | error e => exact (h.of_error hr).elim

theorem Ensures.of_forall {a : Action σ β α} (hR : ∀ r w', R r w') (hF : ∀ e w', F e w') :
    a.Ensures w R F := by
  unfold Ensures
  split
  · exact hR _ _
  · exact hF _ _

theorem Ensures.and {a : Action σ β α} {R' : α → World σ β → Prop}
    {F' : Failure → World σ β → Prop} (h : a.Ensures w R F) (h' : a.Ensures w R' F') :
    a.Ensures w (fun r w' => R r w' ∧ R' r w') (fun e w' => F e w' ∧ F' e w') := by
  unfold Ensures at h h' ⊢
  split at h
  next heq => exact ⟨h, by simpa only [heq] using h'⟩
  next heq => exact ⟨h, by simpa only [heq] using h'⟩

theorem run_bind (a : Action σ β α) (k : α → Action σ β γ) (w : World σ β) :
    (a >>= k).run w =
      match a.run w with
      | (.ok r, w') => (k r).run w'
      | (.error e, w') => (.error e, w') := by
  change (ExceptT.bindCont k (a w).1 : StateM (World σ β) _) (a w).2 = _
  rw [run]
  obtain ⟨r, w'⟩ := a w
  cases r <;> rfl

theorem run_attempt (a : Action σ β α) (w : World σ β) :
    a.attempt.run w = (.ok (a.run w).1, (a.run w).2) := rfl

theorem run_discard (a : Action σ β α) (w : World σ β) :
    ((discard a : Action σ β Unit).run w).2 = (a.run w).2 := by
  change ((a >>= fun _ => pure ()).run w).2 = (a.run w).2
  rw [run_bind]
  obtain ⟨r, w'⟩ := a.run w
  cases r <;> rfl

theorem run_announcing (a : Action σ β α) (w : World σ β) :
    a.announcing.run w =
      match a.run w with
      | (.ok r, w') => (.ok r, w')
      | (.error e, w') => (.error e, { w' with journal := w'.journal.push (.failure e) }) := rfl

theorem run_onStore (f : Clock → σ → Except Failure α × σ) (w : World σ β) :
    (onStore f : Action σ β α).run w =
      ((f w.clock w.store).1, { w with store := (f w.clock w.store).2 }) := rfl

theorem run_onBroker (f : Clock → β → Except Failure α × β) (w : World σ β) :
    (onBroker f : Action σ β α).run w =
      ((f w.clock w.broker).1, { w with broker := (f w.clock w.broker).2 }) := rfl

theorem ensures_bind {a : Action σ β γ} {k : γ → Action σ β α} :
    (a >>= k).Ensures w R F ↔ a.Ensures w (fun r w' => (k r).Ensures w' R F) F := by
  simp only [Ensures, run_bind]
  obtain ⟨r, w'⟩ := a.run w
  cases r <;> rfl

theorem ensures_discard {a : Action σ β α} {R : Unit → World σ β → Prop} :
    (discard a : Action σ β Unit).Ensures w R F ↔ a.Ensures w (fun _ w' => R () w') F :=
  ensures_bind

@[simp] theorem ensures_pure {r : α} : (pure r : Action σ β α).Ensures w R F ↔ R r w := Iff.rfl

@[simp] theorem ensures_update {f : World σ β → World σ β} {R : Unit → World σ β → Prop} :
    (update f).Ensures w R F ↔ R () (f w) := Iff.rfl

@[simp] theorem ensures_world {R : World σ β → World σ β → Prop} :
    (world : Action σ β (World σ β)).Ensures w R F ↔ R w w := Iff.rfl

theorem ensures_note {n : Notice} {R : Unit → World σ β → Prop} (h : World.Blind (R ()))
    (hw : R () w) : (note n).Ensures w R F :=
  h (w.journal.push n) w.metrics hw

theorem ensures_record {lane : Lane} {s : LaneMetrics.Sample} {R : Unit → World σ β → Prop}
    (h : World.Blind (R ())) (hw : R () w) : (record lane s).Ensures w R F :=
  h w.journal (w.metrics.record lane.name s) hw

theorem ensures_note_bind {n : Notice} {k : Unit → Action σ β α} {P : World σ β → Prop}
    (hP : World.Blind P) (hw : P w) (hk : ∀ w, P w → (k ()).Ensures w R F) :
    (note n >>= k).Ensures w R F :=
  ensures_bind.2 (hk _ (hP (w.journal.push n) w.metrics hw))

theorem ensures_record_bind {lane : Lane} {s : LaneMetrics.Sample} {k : Unit → Action σ β α}
    {P : World σ β → Prop} (hP : World.Blind P) (hw : P w)
    (hk : ∀ w, P w → (k ()).Ensures w R F) : (record lane s >>= k).Ensures w R F :=
  ensures_bind.2 (hk _ (hP w.journal (w.metrics.record lane.name s) hw))

theorem ensures_ofExcept {r : Except Failure α} :
    (ofExcept r : Action σ β α).Ensures w R F ↔
      match r with
      | .ok a => R a w
      | .error e => F e w := by
  cases r <;> rfl

theorem ensures_attempt {a : Action σ β γ} {R : Except Failure γ → World σ β → Prop} :
    a.attempt.Ensures w R F ↔
      a.Ensures w (fun r w' => R (.ok r) w') (fun e w' => R (.error e) w') := by
  simp only [Ensures, run_attempt]
  obtain ⟨r, w'⟩ := a.run w
  cases r <;> rfl

theorem Ensures.announcing_unread {a : Action σ β α} (h : a.Ensures w R F)
    (hF : ∀ e, World.Unread (F e)) : a.announcing.Ensures w R F := by
  simp only [Ensures, run_announcing] at h ⊢
  generalize a.run w = out at h ⊢
  obtain ⟨r, w'⟩ := out
  cases r with
  | ok r => exact h
  | error e => exact hF e (w'.journal.push _) h

theorem Ensures.announcing {a : Action σ β α} (h : a.Ensures w R F)
    (hF : ∀ e, World.Blind (F e)) : a.announcing.Ensures w R F :=
  h.announcing_unread fun e => (hF e).unread

theorem Ensures.announcingIf_unread {a : Action σ β α} (h : a.Ensures w R F)
    (hF : ∀ e, World.Unread (F e)) (b : Bool) : (a.announcingIf b).Ensures w R F := by
  unfold Action.announcingIf
  split
  · exact h.announcing_unread hF
  · exact h

theorem Ensures.announcingIf {a : Action σ β α} (h : a.Ensures w R F)
    (hF : ∀ e, World.Blind (F e)) (b : Bool) : (a.announcingIf b).Ensures w R F :=
  h.announcingIf_unread (fun e => (hF e).unread) b

theorem ensures_onStore {f : Clock → σ → Except Failure α × σ} :
    (onStore f : Action σ β α).Ensures w R F ↔
      match f w.clock w.store with
      | (.ok r, s) => R r { w with store := s }
      | (.error e, s) => F e { w with store := s } := by
  simp only [Ensures, run_onStore]
  obtain ⟨r, s⟩ := f w.clock w.store
  cases r <;> rfl

theorem ensures_onBroker {f : Clock → β → Except Failure α × β} :
    (onBroker f : Action σ β α).Ensures w R F ↔
      match f w.clock w.broker with
      | (.ok r, b) => R r { w with broker := b }
      | (.error e, b) => F e { w with broker := b } := by
  simp only [Ensures, run_onBroker]
  obtain ⟨r, b⟩ := f w.clock w.broker
  cases r <;> rfl

end Action

end SyncCascade
