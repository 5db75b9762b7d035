import SyncCascade.Http.Handler
import SyncCascade.Proofs.Batch
import SyncCascade.Proofs.Broker.Pending
import SyncCascade.Proofs.Members
import SyncCascade.Store.Session

/-!
# Spellings in requests

A request for closures may spell its identifiers in any form. They are brought into the canonical one
before anything is pushed, so the jobs, the response and the world afterwards depend on the identifiers
alone, and the handler of a job reads back what was asked for.
-/

namespace SyncCascade

/-- The job names some of the identifiers, all in canonical form, and the handler reads these from it. -/
structure JobPayload.Conveys (p : JobPayload) (us : List Uuid) : Prop where
  single : p.batchIds = none → Uuid.Canonical p.id
  members : ∀ s ∈ p.memberIds, Uuid.Canonical s
  read : ∃ members : List Uuid, (∀ u ∈ members, u ∈ us) ∧ p.memberIds = members.map Uuid.text ∧
    ∀ (α : Type) [Identifier α],
      Engine.parseMembers p.memberIds = .ok (members.map (Identifier.ofUuid : Uuid → α))

theorem JobPayload.Conveys.of_sameWork {p q : JobPayload} {us : List Uuid} (h : p.Conveys us)
    (hsame : p.SameWork q) : q.Conveys us where
  single hq := hsame.1 ▸ h.single (hsame.2.2.trans hq)
  members := hsame.memberIds_eq ▸ h.members
  read := hsame.memberIds_eq ▸ h.read

theorem Uuid.spelledBy_text (u : Uuid) : u.SpelledBy u.text :=
  Uuid.parse?_eq_some_iff.1 (Uuid.parse?_text u)

theorem Uuid.allSpelledBy_texts (us : List Uuid) : Uuid.AllSpelledBy us (us.map Uuid.text) := by
  induction us with
  | nil => exact .nil
  | cons u rest ih => exact .cons u.spelledBy_text ih

theorem Uuid.exists_of_texts {us : List Uuid} {ss : List String} (h : ∀ s ∈ ss, s ∈ us.map Uuid.text) :
    ∃ members : List Uuid, (∀ u ∈ members, u ∈ us) ∧ ss = members.map Uuid.text := by
  induction ss with
  | nil => exact ⟨[], nofun, rfl⟩
  | cons s rest ih =>
    obtain ⟨members, hmem, rfl⟩ := ih fun s' hs' => h s' (List.mem_cons_of_mem _ hs')
    obtain ⟨u, hu, rfl⟩ := List.mem_map.1 (h s List.mem_cons_self)
    exact ⟨u :: members, List.forall_mem_cons.2 ⟨hu, hmem⟩, rfl⟩

theorem Queue.conveys_of_mem_formJobs {options : LaneOptions} {kind : JobKind} {us : List Uuid}
    {job : JobPayload} (h : job ∈ formJobs options kind (us.map Uuid.text)) : job.Conveys us := by
  have hcanonical : ∀ s ∈ us.map Uuid.text, Uuid.Canonical s :=
    List.forall_mem_map.2 fun u _ => u.canonical_text
  have hmembers : ∀ s ∈ job.memberIds, s ∈ us.map Uuid.text := fun s hs => mem_of_mem_formJobs h hs
  refine ⟨fun hsingle => ?_, fun s hs => hcanonical s (hmembers s hs), ?_⟩
  · rcases of_mem_formJobs h with ⟨s, hs, rfl⟩ | ⟨m, rfl, -⟩
    · exact hcanonical s hs
    · cases hsingle
  · obtain ⟨members, hmem, htexts⟩ := Uuid.exists_of_texts hmembers
    refine ⟨members, hmem, htexts, fun α _ => ?_⟩
    rw [htexts]
    exact Engine.parseMembers_of_spelled (Uuid.allSpelledBy_texts members)

namespace Http

/-- The request asks for the closure of these targets. -/
structure Request.Posts (r : Request) (kind : JobKind) (ids : List String) : Prop where
  target : Route.ofTarget? r.target = some (.closure kind)
  method : r.method = "POST"
  mediaType : acceptsJson r.contentType = true
  body : Json.decodeFirst ClosureBody.decoder r.body.toList = .ok ⟨ids⟩

variable {us : List Uuid} {kind : JobKind} {ids ids' : List String} {r r' : Request}

theorem canonicalIds_of_spelled (α : Type) [Identifier α] (h : Uuid.AllSpelledBy us ids) :
    canonicalIds α ids = .ok (us.map Uuid.text) := by
  induction h with
  | nil => rfl
  | cons hs hrest ih =>
    unfold canonicalIds
    rw [Identifier.parse_of_spelled hs, ih]
    unfold Identifier.text
    simp only [bind, Except.bind, Identifier.uuid_ofUuid]
    rfl

theorem canonicalTargets_of_spelled (kind : JobKind) (h : Uuid.AllSpelledBy us ids) :
    canonicalTargets kind ids = .ok (us.map Uuid.text) := by
  cases kind with
  | changesetClosure => exact canonicalIds_of_spelled ChangesetId h
  | fileClosure => exact canonicalIds_of_spelled FileId h
  | syncClosure => exact canonicalIds_of_spelled SyncId h

section Engine

variable {σ β : Type} (E : Engine σ β)

/-- A push of the canonical forms, and the response to it. -/
def pushCanonical (kind : JobKind) (us : List Uuid) : Action σ β Response := do
  match ← (E.push kind (us.map Uuid.text)).attempt with
  | .ok report => pure (queued kind report)
  | .error e => refuse e

theorem closure_of_posts (hr : r.Posts kind ids) (hus : us ≠ []) (h : Uuid.AllSpelledBy us ids) :
    closure E kind r = pushCanonical E kind us := by
  have hsome : ids.isEmpty = false := by
    cases h with
    | nil => exact absurd rfl hus
    | cons => rfl
  unfold closure pushClosure
  rw [if_pos hr.mediaType, hr.body]
  dsimp only
  rw [hsome, canonicalTargets_of_spelled kind h]
  rfl

end Engine

theorem respond_of_posts {σ β : Type} (S : Service σ β) (fresh : SyncId) (hr : r.Posts kind ids) :
    respond S fresh r = closure S.engine kind r := by
  have hallows : Route.allows (.closure kind) r.method = true := by
    rw [hr.method]
    rfl
  have hmethod : r.method ≠ "HEAD" := by
    rw [hr.method]
    decide
  unfold respond
  rw [hr.target]
  dsimp only
  rw [if_pos hallows]
  simp only [if_neg hmethod, bind_pure]

theorem pushCanonical_queues {σ : Type} (storage : Storage σ) (transaction : TransactionConfig)
    (queue : QueueConfig) (kind : JobKind) (us : List Uuid) (w : World σ Lanes) :
    let jobs := Queue.formJobs (queue.lane kind.lane) kind (us.map Uuid.text)
    (pushCanonical ⟨storage, Lanes.broker, transaction, queue⟩ kind us).Ensures w
      (fun response w' => ∃ report, response = queued kind report ∧ w'.store = w.store ∧
        report.jobIds.Perm (jobs.map JobPayload.id) ∧
        (∀ lane, lane ≠ kind.lane → w'.broker.get lane = w.broker.get lane) ∧
        (w.broker.get kind.lane).Gained jobs (w'.broker.get kind.lane))
      fun _ _ => False := by
  intro jobs
  unfold pushCanonical
  rw [Action.ensures_bind, Action.ensures_attempt]
  refine (Queue.push_accepted queue kind (us.map Uuid.text)).mono ?_ fun _ _ h => h.elim
  rintro report w' ⟨haccepted, rfl⟩
  refine ⟨_, rfl, haccepted.store, ?_, fun lane hlane => ?_, ?_⟩
  · refine (LaneState.jobIds_replies_perm _ _).trans (.of_eq ?_)
    unfold Offer.ids
    rw [List.map_map]
    rfl
  · rw [haccepted.broker, Lanes.get_set, if_neg hlane]
  · rw [haccepted.broker, Lanes.get_set_self, LaneState.acceptAll_map]
    exact LaneState.offerAll_gained ..

/-- Requests that name the same identifiers get the same response, and the world afterwards is the same,
however they spell them. In memory the response is that their jobs are queued: these name the identifiers
in canonical form, all of them and no others, and the handler reads them back. So it is with all that is
pending afterwards and was not before. -/
theorem spelling_immaterial (hus : us ≠ []) (hids : Uuid.AllSpelledBy us ids)
    (hids' : Uuid.AllSpelledBy us ids') (hr : r.Posts kind ids) (hr' : r'.Posts kind ids') :
    (∀ (σ β : Type) (E : Engine σ β) (w : World σ β),
      (closure E kind r).run w = (closure E kind r').run w) ∧
    (∀ (σ β : Type) (S : Service σ β) (fresh : SyncId) (w : World σ β),
      (respond S fresh r).run w = (respond S fresh r').run w) ∧
    ∀ (σ : Type) (storage : Storage σ) (transaction : TransactionConfig) (queue : QueueConfig)
      (w : World σ Lanes),
      let jobs := Queue.formJobs (queue.lane kind.lane) kind (us.map Uuid.text)
      (∃ report w', (closure ⟨storage, Lanes.broker, transaction, queue⟩ kind r).run w =
          (.ok (queued kind report), w') ∧ w'.store = w.store ∧
        report.jobIds.Perm (jobs.map JobPayload.id) ∧
        (∀ lane, lane ≠ kind.lane → w'.broker.get lane = w.broker.get lane) ∧
        (w.broker.get kind.lane).Gained jobs (w'.broker.get kind.lane) ∧
        ∀ {id q}, (w'.broker.get kind.lane).pending.find? id = some q →
          (∃ q₀, (w.broker.get kind.lane).pending.find? id = some q₀ ∧
            q₀.payload.SameWork q.payload) ∨ q.payload.Conveys us) ∧
      (∀ job ∈ jobs, job.Conveys us) ∧ ∀ u ∈ us, ∃ job ∈ jobs, u.text ∈ job.memberIds := by
  refine ⟨fun σ β E w => ?_, fun σ β S fresh w => ?_, fun σ storage transaction queue w => ?_⟩
  · rw [closure_of_posts E hr hus hids, closure_of_posts E hr' hus hids']
  · rw [respond_of_posts S fresh hr, respond_of_posts S fresh hr', closure_of_posts _ hr hus hids,
      closure_of_posts _ hr' hus hids']
  · intro jobs
    have hconveys : ∀ job ∈ jobs, job.Conveys us := fun job hjob => Queue.conveys_of_mem_formJobs hjob
    refine ⟨?_, hconveys, fun u hu => Queue.exists_mem_formJobs _ _ (List.mem_map_of_mem hu)⟩
    rw [closure_of_posts _ hr hus hids]
    obtain ⟨response, hresponse, report, rfl, hstore, hids, hlanes, hgained⟩ :=
      (pushCanonical_queues storage transaction queue kind us w).exists_ok
    refine ⟨report, _, Prod.ext hresponse rfl, hstore, hids, hlanes, hgained, fun hq => ?_⟩
    rcases hgained.work hq with hbefore | ⟨job, hjob, -, hsame⟩
    · exact .inl hbefore
    · exact .inr ((hconveys job hjob).of_sameWork hsame)

/-- Two changesets in all four forms. -/
theorem spelling_immaterial_forms :
    let us : List Uuid := [⟨10⟩, ⟨11⟩]
    let ids := ["0000000000000000000000000000000A", "00000000-0000-0000-0000-00000000000b"]
    let ids' := ["\x7b00000000-0000-0000-0000-00000000000A\x7d",
      "urn:uuid:00000000-0000-0000-0000-00000000000B"]
    let post (body : String) : Request :=
      ⟨"POST", "/changeset/closure", some "application/json", "\x7b\"ids\": [" ++ body ++ "]\x7d"⟩
    let r := post "\"0000000000000000000000000000000A\", \"00000000-0000-0000-0000-00000000000b\""
    let r' := post ("\"\x7b00000000-0000-0000-0000-00000000000A\x7d\", " ++
      "\"urn:uuid:00000000-0000-0000-0000-00000000000B\"")
    let E : Engine Session Lanes := ⟨Session.storage, Lanes.broker, .default, .default⟩
    let jobs := Queue.formJobs (.batched 100) .changesetClosure (us.map Uuid.text)
    us ≠ [] ∧ Uuid.AllSpelledBy us ids ∧ Uuid.AllSpelledBy us ids' ∧
      r.Posts .changesetClosure ids ∧ r'.Posts .changesetClosure ids' ∧
      (∀ w, (closure E .changesetClosure r).run w = (closure E .changesetClosure r').run w) ∧
      (∀ job ∈ jobs, job.Conveys us) ∧
      ∃ job ∈ jobs, "00000000-0000-0000-0000-00000000000a" ∈ job.memberIds := by
  intro us ids ids' post r r' E jobs
  have hus : us ≠ [] := List.cons_ne_nil _ _
  have hids : Uuid.AllSpelledBy us ids := .cons (by decide +kernel) (.cons (by decide +kernel) .nil)
  have hids' : Uuid.AllSpelledBy us ids' := .cons (by decide +kernel) (.cons (by decide +kernel) .nil)
  have hr : r.Posts .changesetClosure ids :=
    ⟨by decide +kernel, rfl, by decide +kernel, by decide +kernel⟩
  have hr' : r'.Posts .changesetClosure ids' :=
    ⟨by decide +kernel, rfl, by decide +kernel, by decide +kernel⟩
  obtain ⟨hclosure, -, hqueued⟩ := spelling_immaterial hus hids hids' hr hr'
  obtain ⟨-, hconveys, hcovered⟩ := hqueued Session Session.storage .default .default
    (.initial (.ofDatabase .empty) .empty)
  have htext : (⟨10⟩ : Uuid).text = "00000000-0000-0000-0000-00000000000a" := by decide +kernel
  exact ⟨hus, hids, hids', hr, hr', hclosure Session Lanes E, hconveys,
    htext ▸ hcovered ⟨10⟩ List.mem_cons_self⟩

end Http

end SyncCascade
