import SyncCascade.JobJson
import SyncCascade.Proofs.Json.Text

/-!
# Payloads as text

A payload is read from its own text and from every other text that tells it: fields may be left out
where they have their default, stand in any order, and be mixed with others.
-/

namespace SyncCascade

namespace Json

theorem Node.membersWhole_ofMembers {ms : List (String × Json)}
    (h : ∀ m ∈ ms, (Node.ofJson m.2).isWhole = true) :
    Node.membersWhole (Node.ofMembers ms) = true := by
  induction ms with
  | nil => rfl
  | cons m ms ih =>
    obtain ⟨hm, hms⟩ := List.forall_mem_cons.1 h
    exact Bool.and_eq_true_iff.2 ⟨hm, ih hms⟩

namespace Fields

variable {names : List String} {name : String} {ms : List (String × Json)}

def known (names : List String) (ms : List (String × Json)) : List (String × Node) :=
  (ms.filter fun m => m.1 ∈ names).map fun m => (m.1, Node.ofJson m.2)

theorem lookup_known (h : name ∈ names) :
    (known names ms).lookup name = (ms.lookup name).map Node.ofJson := by
  unfold known
  induction ms with
  | nil => rfl
  | cons m ms ih =>
    obtain ⟨other, j⟩ := m
    by_cases heq : name = other
    · subst heq
      simp [h]
    · have hbeq : (name == other) = false := beq_false_of_ne heq
      by_cases hother : other ∈ names
      · simpa [hother, List.lookup_cons, hbeq] using ih
      · simpa [hother, List.lookup_cons, hbeq] using ih

theorem collect_ofMembers {found : List (String × Node)}
    (hwhole : ∀ m ∈ ms, (Node.ofJson m.2).isWhole = true)
    (honce : ((found ++ known names ms).map Prod.fst).Nodup) :
    collect names false found (Node.ofMembers ms) = (found ++ known names ms, none) := by
  induction ms generalizing found with
  | nil => exact congrArg (·, none) (List.append_nil found).symm
  | cons m ms ih =>
    obtain ⟨name, j⟩ := m
    obtain ⟨hj, hms⟩ := List.forall_mem_cons.1 hwhole
    by_cases hname : name ∈ names
    · have hknown : known names ((name, j) :: ms) = (name, Node.ofJson j) :: known names ms := by
        simp [known, hname]
      rw [hknown] at honce ⊢
      have hnew : found.lookup name = none := by
        rw [List.map_append, List.map_cons] at honce
        have hnotMem := (List.nodup_append.1 honce).2.2
        refine List.lookup_eq_none_iff.2 fun m hm => bne_iff_ne.2 ?_
        exact (hnotMem m.1 (List.mem_map_of_mem hm) name List.mem_cons_self).symm
      have hsplit : found ++ (name, Node.ofJson j) :: known names ms =
          (found ++ [(name, Node.ofJson j)]) ++ known names ms := by simp
      rw [hsplit] at honce ⊢
      simp only [Node.ofMembers, collect, if_pos hname, hnew]
      exact ih hms honce
    · have hknown : known names ((name, j) :: ms) = known names ms := by
        simp [known, hname]
      rw [hknown] at honce ⊢
      simp only [Node.ofMembers, collect, if_neg hname, hj]
      exact ih hms honce

def ofMembers (depth : Nat) (names : List String) (ms : List (String × Json)) : Fields :=
  ⟨depth, known names ms, false, none⟩

theorem openRecord_ofMembers (depth : Nat) (hwhole : ∀ m ∈ ms, (Node.ofJson m.2).isWhole = true)
    (honce : ((ms.map Prod.fst).filter (· ∈ names)).Nodup) :
    openRecord names false (depth + 1) (Node.ofJson (.object ms)) = .ok (ofMembers depth names ms) := by
  have hnames : (known names ms).map Prod.fst = (ms.map Prod.fst).filter (· ∈ names) := by
    simp [known, List.filter_map, Function.comp_def]
  have hcollect : collect names false [] (Node.ofMembers ms) = ([] ++ known names ms, none) :=
    collect_ofMembers hwhole (by rwa [List.nil_append, hnames])
  unfold openRecord ofMembers Node.ofJson
  dsimp only
  rw [hcollect]
  rfl

section Reading

variable {α : Type} {f : Fields} {n : Node}

theorem required_of_lookup (h : f.found.lookup name = some n) (d : Decoder α) :
    f.required name d = d f.depth n := by
  unfold required
  rw [h]

theorem defaulted_of_lookup (h : f.found.lookup name = some n) (d : Decoder α) (a : α) :
    f.defaulted name d a = d f.depth n := by
  unfold defaulted
  rw [h]

theorem defaulted_of_absent (h : f.found.lookup name = none) (d : Decoder α) (a : α) :
    f.defaulted name d a = .ok a := by
  unfold defaulted
  rw [h]

end Reading

end Fields

namespace Decode

theorem each_string (depth : Nat) (ss : List String) :
    each string depth (Node.ofItems (ss.map .string)) = .ok ss := by
  induction ss with
  | nil => rfl
  | cons s ss ih =>
    rw [List.map_cons, Node.ofItems, Node.ofJson, each, ih]
    rfl

theorem list_string (depth : Nat) (ss : List String) :
    list string (depth + 1) (Node.ofJson (ofStrings ss)) = .ok ss := each_string depth ss

theorem uint32_ofUInt32 (depth : Nat) (n : UInt32) :
    uint32 depth (Node.ofJson (JobPayload.ofUInt32 n)) = .ok n := by
  have hlimit : n.toNat < Word.limit 32 := n.toNat_lt
  have hsmall : Word.limit 32 ≤ Word.limit 64 := by decide
  have hread : (Lexeme.ofInt n.toNat).toInt? = some (n.toNat : Int) :=
    Lexeme.toInt?_ofInt (by omega) (by omega)
  have hinteger : integer 0 ((Word.limit 32 : Int) - 1) depth
      (Node.ofJson (JobPayload.ofUInt32 n)) = .ok (n.toNat : Int) := by
    unfold integer JobPayload.ofUInt32 Node.ofJson
    dsimp only
    rw [hread]
    dsimp only
    rw [if_pos (by omega)]
  unfold uint32 natural
  rw [hinteger]
  exact congrArg Except.ok (UInt32.ofNat_toNat)

end Decode

end Json

namespace JobKind

theorem named_ofName (depth : Nat) (kind : JobKind) :
    Json.Decode.named (depth + 1) (Json.Node.ofJson (Json.ofName kind)) = .ok kind := by
  unfold Json.Decode.named Json.ofName Json.Node.ofJson
  simp [Json.Decode.variant, Json.Decode.text, Json.Decode.string, Named.parse?_name]

end JobKind

namespace JobPayload

open Json

/-- The members tell a counter, which is left out only where it is zero. -/
def TellsCounter (ms : List (String × Json)) (name : String) (n : UInt32) : Prop :=
  ms.lookup name = some (ofUInt32 n) ∨ ms.lookup name = none ∧ n = 0

/-- The members tell the payload: no field stands twice, and beside the fields there may be anything
that is JSON. -/
structure ToldBy (p : JobPayload) (ms : List (String × Json)) : Prop where
  whole : ∀ m ∈ ms, (Node.ofJson m.2).isWhole = true
  once : ((ms.map Prod.fst).filter (· ∈ fields)).Nodup
  id : ms.lookup "id" = some (.string p.id)
  kind : ms.lookup "kind" = some (ofName p.kind)
  batchIds : ms.lookup "batch_ids" = p.batchIds.map ofStrings ∨
    ms.lookup "batch_ids" = some .null ∧ p.batchIds = none
  transactionFailures : TellsCounter ms "transaction_failures" p.transactionFailures
  stalled : TellsCounter ms "stalled" p.stalled
  dedupCount : TellsCounter ms "dedup_count" p.dedupCount

variable {p : JobPayload} {ms : List (String × Json)}

theorem counter_read {name : String} {n : UInt32} (hname : name ∈ fields)
    (h : TellsCounter ms name n) (depth : Nat) :
    (Fields.ofMembers depth fields ms).defaulted name Decode.uint32 0 = .ok n := by
  have hlookup : (Fields.ofMembers depth fields ms).found.lookup name =
      (ms.lookup name).map Node.ofJson := Fields.lookup_known hname
  rcases h with h | ⟨h, rfl⟩
  · rw [h] at hlookup
    rw [Fields.defaulted_of_lookup hlookup]
    exact Decode.uint32_ofUInt32 _ n
  · rw [h] at hlookup
    exact Fields.defaulted_of_absent hlookup _ _

theorem ToldBy.batchIds_read (h : p.ToldBy ms) (depth : Nat) :
    (Fields.ofMembers (depth + 1) fields ms).defaulted "batch_ids"
      (Decode.option (Decode.list Decode.string)) none = .ok p.batchIds := by
  have hlookup : (Fields.ofMembers (depth + 1) fields ms).found.lookup "batch_ids" =
      (ms.lookup "batch_ids").map Node.ofJson := Fields.lookup_known (by decide)
  rcases h.batchIds with hids | ⟨hnull, hnone⟩
  · rw [hids] at hlookup
    cases hbatch : p.batchIds with
    | none =>
      rw [hbatch] at hlookup
      exact Fields.defaulted_of_absent hlookup _ _
    | some ids =>
      rw [hbatch] at hlookup
      rw [Fields.defaulted_of_lookup hlookup]
      exact congrArg (Except.map some) (Decode.list_string depth ids)
  · rw [hnull] at hlookup
    rw [Fields.defaulted_of_lookup hlookup, hnone]
    rfl

theorem ToldBy.decoded (h : p.ToldBy ms) (depth : Nat) :
    decoder (depth + 2) (Node.ofJson (.object ms)) = .ok p := by
  have hlookup : ∀ name ∈ fields, (Fields.ofMembers (depth + 1) fields ms).found.lookup name =
      (ms.lookup name).map Node.ofJson := fun name hname => Fields.lookup_known hname
  have hid : (Fields.ofMembers (depth + 1) fields ms).required "id" Decode.string = .ok p.id := by
    rw [Fields.required_of_lookup ((hlookup _ (by decide)).trans (congrArg _ h.id))]
    rfl
  have hkind : (Fields.ofMembers (depth + 1) fields ms).required "kind" Decode.named = .ok p.kind := by
    rw [Fields.required_of_lookup ((hlookup _ (by decide)).trans (congrArg _ h.kind))]
    exact JobKind.named_ofName depth p.kind
  have hfailures := counter_read (by decide) h.transactionFailures (depth + 1)
  have hstalled := counter_read (by decide) h.stalled (depth + 1)
  have hdedup := counter_read (by decide) h.dedupCount (depth + 1)
  unfold decoder
  rw [Fields.openRecord_ofMembers (depth + 1) h.whole h.once]
  simp only [bind, Except.bind, hid, hkind, h.batchIds_read depth, hfailures, hstalled, hdedup]
  rfl

theorem ToldBy.parsed (h : p.ToldBy ms) : parse (Json.object ms).text = .ok p := by
  have hwhole : (Node.ofJson (.object ms)).isWhole = true := Node.membersWhole_ofMembers h.whole
  have hdecoded : decode decoder (Json.object ms).chars = .ok p := by
    rw [decode_chars decoder hwhole]
    exact h.decoded 125
  unfold parse parse? Json.text
  rw [String.toList_ofList, hdecoded]
  rfl

theorem isWhole_ofStrings (ss : List String) : (Node.ofJson (ofStrings ss)).isWhole = true := by
  change Node.allWhole (Node.ofItems (ss.map .string)) = true
  induction ss with
  | nil => rfl
  | cons s ss ih => exact Bool.and_eq_true_iff.2 ⟨rfl, ih⟩

theorem toldBy_toJson (p : JobPayload) : ∃ ms, p.toJson = .object ms ∧ p.ToldBy ms := by
  refine ⟨_, rfl, ?_⟩
  cases hids : p.batchIds with
  | none =>
    have honce : (["id", "kind", "transaction_failures", "stalled", "dedup_count"].filter
        (· ∈ fields)).Nodup := by decide
    refine ⟨fun m hm => ?_, honce, rfl, rfl, .inl (by rw [hids]; rfl), .inl rfl, .inl rfl, .inl rfl⟩
    simp only [List.append_nil, List.mem_append, List.mem_cons, List.not_mem_nil, or_false] at hm
    rcases hm with (rfl | rfl) | rfl | rfl | rfl <;> rfl
  | some ids =>
    have honce : (["id", "kind", "batch_ids", "transaction_failures", "stalled", "dedup_count"].filter
        (· ∈ fields)).Nodup := by decide
    refine ⟨fun m hm => ?_, honce, rfl, rfl, .inl (by rw [hids]; rfl), .inl rfl, .inl rfl, .inl rfl⟩
    simp only [List.mem_append, List.mem_cons, List.not_mem_nil, or_false] at hm
    rcases hm with ((rfl | rfl) | rfl) | rfl | rfl | rfl
    · rfl
    · rfl
    · exact isWhole_ofStrings ids
    · rfl
    · rfl
    · rfl

theorem parse_text (p : JobPayload) : parse p.text = .ok p := by
  obtain ⟨ms, hms, htold⟩ := toldBy_toJson p
  unfold JobPayload.text
  rw [hms]
  exact htold.parsed

/-- A payload survives its text. So it does where it was read from another text, and every text that
tells it is read as it, whatever fields were left out, moved or added. -/
theorem text_survives :
    (∀ p : JobPayload, parse p.text = .ok p) ∧
    (∀ (t : String) (p : JobPayload), parse t = .ok p → parse p.text = .ok p) ∧
    ∀ (p : JobPayload) (ms : List (String × Json)), p.ToldBy ms →
      parse (Json.object ms).text = .ok p :=
  ⟨parse_text, fun _ p _ => parse_text p, fun _ _ h => h.parsed⟩

/-- Counters left out, the others moved, and a member that no payload has. -/
theorem text_survives_reordered :
    parse (Json.object [("origin", .array [.real "1.5e3", .null]), ("stalled", .int 2),
      ("kind", .string "file_closure"), ("id", .string "a\"b\n")]).text =
        .ok ⟨"a\"b\n", .fileClosure, none, 0, 2, 0⟩ :=
  text_survives.2.2 ⟨"a\"b\n", .fileClosure, none, 0, 2, 0⟩ _
    ⟨by decide, by decide, rfl, rfl, .inl rfl, .inr ⟨rfl, rfl⟩, .inl rfl, .inr ⟨rfl, rfl⟩⟩

end JobPayload

end SyncCascade
