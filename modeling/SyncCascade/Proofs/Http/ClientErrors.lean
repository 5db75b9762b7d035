import SyncCascade.Console
import SyncCascade.Proofs.Broker.Publish
import SyncCascade.Proofs.Confinement
import SyncCascade.Proofs.Rerun.Refusal

/-!
# The mistakes of clients

In memory every request is answered. The status blames the client exactly if the request is mistaken:
nothing is there under its target and method, its body is not what the route reads, one of its ids is
none, or the committed database refuses the rerun, which is looked up if the policy for transactions
allows any attempt. A request that is blamed leaves the rows, the lanes and the metrics as they were,
since it is refused before anything is pushed, and a rerun is undone as a whole and never touches the
lanes or the metrics.
-/

namespace SyncCascade

/-- The same rows are committed, and the lanes and the metrics are the same. -/
structure World.Agrees (w w' : World Session Lanes) : Prop where
  database : w'.store.committed = w.store.committed
  broker : w'.broker = w.broker
  metrics : w'.metrics = w.metrics

namespace World.Agrees

theorem refl (w : World Session Lanes) : w.Agrees w := ⟨rfl, rfl, rfl⟩

theorem trans {w w' w'' : World Session Lanes} (h : w.Agrees w') (h' : w'.Agrees w'') : w.Agrees w'' :=
  ⟨h'.database.trans h.database, h'.broker.trans h.broker, h'.metrics.trans h.metrics⟩

end World.Agrees

namespace Http

open SyncCascade.Action

def IsClientError (status : Nat) : Prop := 400 ≤ status ∧ status < 500

instance (status : Nat) : Decidable (IsClientError status) := inferInstanceAs (Decidable (_ ∧ _))

/-- The sync that a segment of a target names. -/
def baseOf? (segment : String) : Option SyncId := (Percent.decode? segment).bind Identifier.parse?

/-- What is wrong with a request for a closure. -/
inductive ClosureMistake (r : Request) : Prop
  | mediaType (h : acceptsJson r.contentType = false)
  | body {fault : Json.Fault} (h : Json.decodeFirst ClosureBody.decoder r.body.toList = .error fault)
  | noIds {body : ClosureBody} (hbody : Json.decodeFirst ClosureBody.decoder r.body.toList = .ok body)
      (h : body.ids = [])
  | invalidId {body : ClosureBody} {s : String}
      (hbody : Json.decodeFirst ClosureBody.decoder r.body.toList = .ok body) (hs : s ∈ body.ids)
      (h : Uuid.parse? s = none)

/-- What is wrong with a request for a rerun of the sync that the segment names. -/
inductive RerunMistake (policy : RetryPolicy) (db : Database) (fresh : SyncId) (segment : String)
    (r : Request) : Prop
  | base (h : baseOf? segment = none)
  | body {e : Failure} (h : RerunBody.parse r.body = .error e)
  | refused {base : SyncId} {body : RerunBody} (hbase : baseOf? segment = some base)
      (hbody : RerunBody.parse r.body = .ok body) (hallowed : 0 < policy.attempts)
      (h : db.Refused base (body.id.getD fresh))

/-- What is wrong with a request that came to its route. -/
def RouteMistake (policy : RetryPolicy) (db : Database) (fresh : SyncId) (r : Request) : Route → Prop
  | .health | .metrics => False
  | .closure _ => ClosureMistake r
  | .rerun segment => RerunMistake policy db fresh segment r

/-- What is wrong with a request. -/
inductive Mistake (policy : RetryPolicy) (db : Database) (fresh : SyncId) (r : Request) : Prop
  | target (h : Route.ofTarget? r.target = none)
  | method {route : Route} (hroute : Route.ofTarget? r.target = some route)
      (h : route.allows r.method = false)
  | content {route : Route} (hroute : Route.ofTarget? r.target = some route)
      (h : RouteMistake policy db fresh r route)

/-- The response blames the client exactly for the mistake, and then nothing has changed. -/
structure Answers (mistake : Prop) (w : World Session Lanes) (response : Response)
    (w' : World Session Lanes) : Prop where
  blames : IsClientError response.status ↔ mistake
  agrees : IsClientError response.status → w.Agrees w'

variable (c : Console) {w w' : World Session Lanes} {mistake : Prop} {response : Response}

theorem answers_blaming (hblames : IsClientError response.status) (h : mistake) :
    Answers mistake w response w := ⟨iff_of_true hblames h, fun _ => .refl w⟩

theorem answers_otherwise (hblames : ¬ IsClientError response.status) (h : ¬ mistake) :
    Answers mistake w response w' := ⟨iff_of_false hblames h, fun hblamed => (hblames hblamed).elim⟩

theorem Answers.of_status {response' : Response} (h : Answers mistake w response w')
    (hstatus : response'.status = response.status) : Answers mistake w response' w' := by
  constructor <;> rw [hstatus]
  · exact h.blames
  · exact h.agrees

theorem isClientError_statusOf (kind : Failure.Kind) :
    IsClientError (statusOf kind) ↔ kind.isClientError = true ∨ kind = .invalidPayload := by
  cases kind <;> decide

theorem refuse_answers {e : Failure} (hw : w.Agrees w')
    (h : IsClientError (statusOf e.kind) ↔ mistake) :
    (refuse e).Ensures w' (Answers mistake w) fun _ _ => False := by
  unfold refuse
  split
  · exact ⟨h, fun _ => hw.trans ⟨rfl, rfl, rfl⟩⟩
  · exact ⟨h, fun _ => hw⟩

theorem refuse_invalid {e : Failure} (hkind : e.kind = .invalidPayload) (h : mistake) :
    (refuse e).Ensures w (Answers mistake w) fun _ _ => False :=
  refuse_answers (.refl w) (iff_of_true ((isClientError_statusOf _).2 (.inr hkind)) h)

theorem health_answers (w : World Session Lanes) :
    (health c.service).Ensures w (Answers False w) fun _ _ => False := by
  unfold health
  rw [ensures_bind, ensures_attempt]
  exact answers_otherwise (by decide) id

theorem countLanes_ensures (lanes : List Lane) (w : World Session Lanes) :
    (c.service.countLanes lanes).Ensures w (fun _ _ => True) fun _ _ => False := by
  induction lanes generalizing w with
  | nil => trivial
  | cons lane rest ih =>
    unfold Service.countLanes
    rw [ensures_bind]
    have hstanding : World.Standing (fun _ => True) w.broker w.clock w := ⟨trivial, rfl, rfl⟩
    refine (Queue.request_ensures hstanding _).mono (fun counts w' _ => ?_) fun _ _ h => h
    rw [ensures_bind]
    exact (ih w').mono (fun _ _ _ => trivial) fun _ _ h => h

theorem reportLanes_ensures (counts : List (Lane × LaneCounts)) (w : World Session Lanes) :
    (reportLanes counts).Ensures w (fun _ _ => True) fun _ _ => False := by
  induction counts generalizing w with
  | nil => trivial
  | cons lane rest ih =>
    unfold reportLanes reportLane
    rw [ensures_bind, ensures_bind]
    refine ensures_update.2 (ensures_bind.2 (ensures_world.2 (ensures_pure.2 ?_)))
    exact ensures_bind.2 ((ih _).mono (fun _ _ _ => trivial) fun _ _ h => h)

theorem metrics_answers (w : World Session Lanes) :
    (metrics c.service).Ensures w (Answers False w) fun _ _ => False := by
  unfold metrics
  rw [ensures_bind, ensures_attempt]
  refine (countLanes_ensures c _ w).mono (fun counts w' _ => ?_) fun _ _ h => h.elim
  refine ensures_bind.2 ((reportLanes_ensures counts w').mono (fun reports w'' _ => ?_) fun _ _ h => h)
  exact answers_otherwise (show ¬ IsClientError 200 by decide) id

theorem canonicalIds_cases (α : Type) [Identifier α] (ids : List String) :
    match canonicalIds α ids with
    | .ok _ => ∀ s ∈ ids, Uuid.parse? s ≠ none
    | .error e => e.kind = .invalidPayload ∧ ∃ s ∈ ids, Uuid.parse? s = none := by
  induction ids with
  | nil => nofun
  | cons s rest ih =>
    unfold canonicalIds Identifier.parse Identifier.parse?
    cases hs : Uuid.parse? s with
    | none => exact ⟨rfl, s, List.mem_cons_self, hs⟩
    | some u =>
      simp only [Option.map_some, bind, Except.bind]
      cases hrest : canonicalIds α rest with
      | error e =>
        rw [hrest] at ih
        exact ⟨ih.1, ih.2.imp fun s h => ⟨List.mem_cons_of_mem _ h.1, h.2⟩⟩
      | ok others =>
        rw [hrest] at ih
        intro s' hs'
        rcases List.mem_cons.1 hs' with rfl | hmem
        · rw [hs]
          nofun
        · exact ih s' hmem

theorem canonicalTargets_cases (kind : JobKind) (ids : List String) :
    match canonicalTargets kind ids with
    | .ok _ => ∀ s ∈ ids, Uuid.parse? s ≠ none
    | .error e => e.kind = .invalidPayload ∧ ∃ s ∈ ids, Uuid.parse? s = none := by
  cases kind with
  | changesetClosure => exact canonicalIds_cases ChangesetId ids
  | fileClosure => exact canonicalIds_cases FileId ids
  | syncClosure => exact canonicalIds_cases SyncId ids

theorem pushClosure_answers (kind : JobKind) {r : Request} {body : ClosureBody}
    (haccepts : acceptsJson r.contentType = true)
    (hbody : Json.decodeFirst ClosureBody.decoder r.body.toList = .ok body) (w : World Session Lanes) :
    (pushClosure c.service.engine kind body).Ensures w (Answers (ClosureMistake r) w) fun _ _ => False := by
  unfold pushClosure
  split
  next hempty =>
    exact answers_blaming (show IsClientError 400 by decide)
      (.noIds hbody (List.isEmpty_iff.1 hempty))
  next hsome =>
    have hcases := canonicalTargets_cases kind body.ids
    cases htargets : canonicalTargets kind body.ids with
    | error e =>
      rw [htargets] at hcases
      obtain ⟨hkind, s, hs, hinvalid⟩ := hcases
      exact refuse_invalid hkind (.invalidId hbody hs hinvalid)
    | ok ids =>
      rw [htargets] at hcases
      dsimp only
      rw [ensures_bind, ensures_attempt]
      have hstanding : World.Standing (fun _ => True) w.broker w.clock w := ⟨trivial, rfl, rfl⟩
      refine (Queue.push_ensures _ kind ids hstanding).mono (fun report w' _ => ?_)
        fun _ _ h => h.elim
      refine answers_otherwise (show ¬ IsClientError 201 by decide) fun hmistake => ?_
      cases hmistake with
      | mediaType h => cases h.symm.trans haccepts
      | body h => cases h.symm.trans hbody
      | noIds hbody' h =>
        cases hbody'.symm.trans hbody
        exact hsome (List.isEmpty_iff.2 h)
      | invalidId hbody' hs h =>
        cases hbody'.symm.trans hbody
        exact hcases _ hs h

theorem closure_answers (kind : JobKind) (r : Request) (w : World Session Lanes) :
    (closure c.service.engine kind r).Ensures w (Answers (ClosureMistake r) w) fun _ _ => False := by
  unfold closure
  split
  next haccepts =>
    cases hbody : Json.decodeFirst ClosureBody.decoder r.body.toList with
    | ok body => exact pushClosure_answers c kind haccepts hbody w
    | error fault =>
      cases fault with
      | malformed | mistyped => exact answers_blaming (by decide) (.body hbody)
  next haccepts =>
    exact answers_blaming (by decide) (.mediaType (Bool.eq_false_iff.2 haccepts))

theorem createRerun_answers (base : SyncId) (request : RerunRequest) (w : World Session Lanes) :
    (createRerun c.service base request).Ensures w
      (Answers (0 < c.settings.transaction.retry.attempts ∧
        w.store.committed.Refused base request.id) w) fun _ _ => False := by
  have hstanding : World.Standing (Session.Has w.store.committed) w.broker w.clock w :=
    ⟨rfl, rfl, rfl⟩
  have hconfined : (c.service.createRerun base request).Confined :=
    Rerun.confined_create Session.storage c.settings.transaction base request
  unfold createRerun
  rw [ensures_bind, ensures_attempt]
  by_cases hallowed : 0 < c.settings.transaction.retry.attempts
  · have hfails : (c.service.createRerun base request).Ensures w _ _ :=
      Rerun.create_fails hallowed hstanding
    refine (hfails.and (hconfined.ensures w)).mono ?_ ?_
    · rintro outcome w' ⟨hadmitted, -⟩
      cases outcome with
      | created =>
        exact answers_otherwise (show ¬ IsClientError 201 by decide) fun h => hadmitted h.2
      | notCreated =>
        exact answers_otherwise (show ¬ IsClientError 200 by decide) fun h => hadmitted h.2
    · rintro e w' ⟨⟨hfails, hhas, -, -⟩, hbroker, hmetrics⟩
      refine refuse_answers ⟨hhas, hbroker, hmetrics⟩ ?_
      rcases hfails with hrefuses | ⟨hadmitted, hkind⟩
      · exact iff_of_true ((isClientError_statusOf _).2 (.inl hrefuses.isClientError))
          ⟨hallowed, e, hrefuses⟩
      · refine iff_of_false ?_ fun h => hadmitted h.2
        rcases hkind with hkind | hkind | hkind <;> rw [hkind] <;> decide
  · have hstops : (c.service.createRerun base request).Ensures w _ _ :=
      Rerun.create_stops World.standing_blind (Nat.eq_zero_of_not_pos hallowed) base request hstanding
    refine (hstops.and (hconfined.ensures w)).mono (fun _ _ h => h.1.elim) ?_
    rintro e w' ⟨⟨rfl, hhas, -, -⟩, hbroker, hmetrics⟩
    exact refuse_answers ⟨hhas, hbroker, hmetrics⟩ (iff_of_false (by decide) fun h => hallowed h.1)

theorem rerunBody_invalid {text : String} {e : Failure} (h : RerunBody.parse text = .error e) :
    e.kind = .invalidPayload := by
  unfold RerunBody.parse at h
  split at h
  · cases h
  · split at h <;> cases h
    rfl

theorem rerun_answers (fresh : SyncId) (segment : String) (r : Request) (w : World Session Lanes) :
    (rerun c.service fresh segment r).Ensures w
      (Answers (RerunMistake c.settings.transaction.retry w.store.committed fresh segment r) w)
      fun _ _ => False := by
  unfold rerun
  cases hname : Percent.decode? segment with
  | none =>
    have hbase : baseOf? segment = none := by rw [baseOf?, hname, Option.bind_none]
    exact answers_blaming (by decide) (.base hbase)
  | some name =>
    dsimp only
    unfold Identifier.parse
    cases hparse : Identifier.parse? (α := SyncId) name with
    | none =>
      have hbase : baseOf? segment = none := by rw [baseOf?, hname, Option.bind_some, hparse]
      exact refuse_invalid rfl (.base hbase)
    | some base =>
      have hbase : baseOf? segment = some base := by rw [baseOf?, hname, Option.bind_some, hparse]
      dsimp only
      cases hbody : RerunBody.parse r.body with
      | error e => exact refuse_invalid (rerunBody_invalid hbody) (.body hbody)
      | ok body =>
        -- The base and the body are those of the request, so a refusal is all that can be wrong.
        have hmistake : (0 < c.settings.transaction.retry.attempts ∧
              w.store.committed.Refused base (body.id.getD fresh)) ↔
            RerunMistake c.settings.transaction.retry w.store.committed fresh segment r := by
          refine ⟨fun h => .refused hbase hbody h.1 h.2, fun h => ?_⟩
          cases h with
          | base h => cases h.symm.trans hbase
          | body h => cases h.symm.trans hbody
          | refused hbase' hbody' hallowed h =>
            cases hbase'.symm.trans hbase
            cases hbody'.symm.trans hbody
            exact ⟨hallowed, h⟩
        dsimp only
        rw [ensures_bind, ← hmistake]
        exact createRerun_answers c base _ w

theorem mistake_iff {policy : RetryPolicy} {db : Database} {fresh : SyncId} {r : Request} {route : Route}
    (hroute : Route.ofTarget? r.target = some route) (hallows : route.allows r.method = true) :
    Mistake policy db fresh r ↔ RouteMistake policy db fresh r route := by
  refine ⟨fun h => ?_, .content hroute⟩
  cases h with
  | target h => cases h.symm.trans hroute
  | method hroute' h =>
    cases hroute'.symm.trans hroute
    cases h.symm.trans hallows
  | content hroute' h =>
    cases hroute'.symm.trans hroute
    exact h

theorem bodiless_answers {a : Action Session Lanes Response} (method : String)
    (h : a.Ensures w (Answers mistake w) fun _ _ => False) :
    (do
      let response ← a
      pure (if method = "HEAD" then .empty response.status else response) :
        Action Session Lanes Response).Ensures w
      (Answers mistake w) fun _ _ => False := by
  rw [ensures_bind]
  refine h.mono (fun response w' hanswers => hanswers.of_status ?_) fun _ _ h => h
  split <;> rfl

theorem respond_answers (fresh : SyncId) (r : Request) (w : World Session Lanes) :
    (respond c.service fresh r).Ensures w
      (Answers (Mistake c.settings.transaction.retry w.store.committed fresh r) w)
      fun _ _ => False := by
  unfold respond
  cases hroute : Route.ofTarget? r.target with
  | none => exact answers_blaming (show IsClientError 404 by decide) (.target hroute)
  | some route =>
    dsimp only
    split
    next hallows =>
      rw [mistake_iff hroute hallows]
      cases route with
      | health => exact bodiless_answers r.method (health_answers c w)
      | metrics => exact bodiless_answers r.method (metrics_answers c w)
      | closure kind => exact bodiless_answers r.method (closure_answers c kind r w)
      | rerun segment => exact bodiless_answers r.method (rerun_answers c fresh segment r w)
    next hallows =>
      exact answers_blaming (show IsClientError 405 by decide)
        (.method hroute (Bool.eq_false_iff.2 hallows))

/-- In memory every request is answered; the response blames the client exactly if the request is
mistaken, and then the rows, the lanes and the metrics are as before. -/
theorem client_errors_change_nothing (fresh : SyncId) (r : Request) (w : World Session Lanes) :
    ∃ response w', (respond c.service fresh r).run w = (.ok response, w') ∧
      (IsClientError response.status ↔
        Mistake c.settings.transaction.retry w.store.committed fresh r) ∧
      (IsClientError response.status →
        w'.store.committed = w.store.committed ∧ w'.broker = w.broker ∧ w'.metrics = w.metrics) := by
  have h := respond_answers c fresh r w
  unfold Ensures at h
  split at h
  next response w' hrun =>
    exact ⟨response, w', hrun, h.blames, fun hblamed =>
      ⟨(h.agrees hblamed).database, (h.agrees hblamed).broker, (h.agrees hblamed).metrics⟩⟩
  next => exact h.elim

/-- A rerun of the small failed sync under the identifier of its first one, while the next commit is to
fail. -/
theorem client_errors_change_nothing_sample :
    let c : Console := ⟨.default, .initial ⟨Rerun.Sample.database 3, none, 1⟩ .empty, 0⟩
    let r : Request := ⟨"POST", "/sync/00000000-0000-0000-0000-000000000001/rerun", none,
      "\x7b\"id\": \"00000000-0000-0000-0000-000000000002\"\x7d"⟩
    ∃ response w', (respond c.service (c.freshId 60000) r).run c.world = (.ok response, w') ∧
      IsClientError response.status ∧ w'.store.committed = c.world.store.committed ∧
      w'.broker = c.world.broker ∧ w'.metrics = c.world.metrics := by
  intro c r
  obtain ⟨response, w', hrun, hblames, hsame⟩ :=
    client_errors_change_nothing c (c.freshId 60000) r c.world
  have hroute : Route.ofTarget? r.target = some (.rerun "00000000-0000-0000-0000-000000000001") := by
    decide +kernel
  have hbase : baseOf? "00000000-0000-0000-0000-000000000001" = some Rerun.Sample.base := by
    decide +kernel
  have hbody : RerunBody.parse r.body = .ok ⟨some Rerun.Sample.earlier, none, none⟩ := by
    decide +kernel
  have hrow : (Rerun.Sample.database 3).syncs.find? Rerun.Sample.base =
      some (Rerun.Sample.baseRow 3) := by decide +kernel
  have hrefused : (Rerun.Sample.database 3).Refused Rerun.Sample.base Rerun.Sample.earlier :=
    ⟨_, .taken hrow (by decide +kernel) (by decide +kernel)⟩
  have hblamed := hblames.2 (.content hroute (.refused hbase hbody (by decide) hrefused))
  exact ⟨response, w', hrun, hblamed, hsame hblamed⟩

end Http

end SyncCascade
