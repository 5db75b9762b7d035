import SyncCascade.Postgres.Record
import Mathlib.Tactic.Simproc.ExistsAndEq

/-!
# Reading rows of Postgres

A row is read if each of its columns has a value of its type, and a column of a vocabulary the name of
one of its values. If any column has not, the reading fails, and always in storage.
-/

namespace SyncCascade

theorem Named.parse_eq_ok_iff {α : Type} [Named α] {s : String} {a : α} :
    parse s = .ok a ↔ s = name a := by
  constructor
  · intro h
    cases hparse : parse? (α := α) s with
    | none => rw [parse, hparse] at h; cases h
    | some b =>
      rw [parse, hparse] at h
      cases h
      exact (eq_of_beq (List.find?_some (p := fun b => name b == s) hparse)).symm
  · rintro rfl
    rw [parse, parse?_name]

namespace Postgres

namespace Value

variable {α : Type}

theorem id?_ofId [Identifier α] (a : α) : id? (ofId a) = some a :=
  congrArg some (Identifier.uuid_injective (Identifier.uuid_ofUuid _))

theorem nullable_ofOption {write : α → Value} {read : Value → Option α} (hnull : read null = none)
    (hread : ∀ a, read (write a) = some a) (o : Option α) :
    nullable read (ofOption write o) = some o := by
  cases o with
  | none => rfl
  | some a =>
    have hvalue : write a ≠ null := fun h => by
      have ha := hread a
      rw [h, hnull] at ha
      cases ha
    unfold ofOption nullable
    split
    · exact absurd ‹_› hvalue
    · exact congrArg (Option.map some) (hread a)

end Value

section Readings

variable {α β : Type} {x : Except Failure α} {f : α → Except Failure β}

theorem bind_eq_ok_iff {b : β} : (x >>= f) = .ok b ↔ ∃ a, x = .ok a ∧ f a = .ok b := by
  cases x <;> simp [bind, Except.bind]

theorem pure_eq_ok_iff {a b : α} : (pure a : Except Failure α) = .ok b ↔ a = b := by
  simp [pure, Except.pure]

def Refused (x : Except Failure α) : Prop := ∃ why, x = .error (.storage why)

/-- The reading gives a value or fails in storage. -/
def StorageBound (x : Except Failure α) : Prop := (∃ a, x = .ok a) ∨ Refused x

namespace StorageBound

theorem pure (a : α) : StorageBound (Pure.pure a) := .inl ⟨a, rfl⟩

theorem bind (hx : StorageBound x) (hf : ∀ a, StorageBound (f a)) : StorageBound (x >>= f) := by
  rcases hx with ⟨a, rfl⟩ | ⟨why, rfl⟩
  · exact hf a
  · exact .inr ⟨why, rfl⟩

theorem refused (hx : StorageBound x) (h : ∀ a, x ≠ .ok a) : Refused x :=
  hx.resolve_left fun ⟨a, ha⟩ => h a ha

end StorageBound

end Readings

namespace Row

variable {α : Type} {row : Row} {column : String}

/-- The column holds a text that names no value of the vocabulary. -/
def Misnamed (α : Type) [Named α] (row : Row) (column : String) : Prop :=
  ∃ t, row.value? column = some (.text t) ∧ ∀ a : α, Named.name a ≠ t

theorem get?_eq_some {read : Value → Option α} {v : Value} {a : α} (hvalue : row.value? column = some v)
    (hread : read v = some a) : row.get? column read = some a := by
  rw [get?, hvalue, Option.bind_some, hread]

theorem get?_nullable {write : α → Value} {read : Value → Option α} {o : Option α}
    (hvalue : row.value? column = some (Value.ofOption write o)) (hnull : read .null = none)
    (hread : ∀ a, read (write a) = some a) : row.get? column (Value.nullable read) = some o :=
  get?_eq_some hvalue (Value.nullable_ofOption hnull hread o)

theorem get_eq_ok_iff {read : Value → Option α} {a : α} :
    row.get column read = .ok a ↔ row.get? column read = some a := by
  unfold get
  cases row.get? column read <;> simp

theorem get_storageBound {read : Value → Option α} : StorageBound (row.get column read) := by
  unfold get
  cases row.get? column read with
  | some a => exact .inl ⟨a, rfl⟩
  | none => exact .inr ⟨_, rfl⟩

variable [Named α]

theorem getNamed_eq_ok_iff {a : α} :
    row.getNamed column = .ok a ↔ row.value? column = some (Value.ofName a) := by
  unfold getNamed get get?
  cases row.value? column with
  | none => simp
  | some v =>
    cases v with
    | text s =>
      have hname : some (Value.text s) = some (Value.ofName a) ↔ Named.parse s = .ok a := by
        simp only [Named.parse_eq_ok_iff, Value.ofName, Option.some.injEq, Value.text.injEq]
      rw [hname, Option.bind_some, Value.text?]
      dsimp only
      cases Named.parse (α := α) s <;> simp
    | _ => simp [Value.text?, Value.ofName]

theorem getNamed_storageBound : StorageBound (row.getNamed column : Except Failure α) := by
  have hget : StorageBound (row.get column Value.text?) := get_storageBound
  unfold getNamed
  rcases hget with ⟨s, hs⟩ | ⟨why, hwhy⟩
  · rw [hs]
    dsimp only
    cases Named.parse (α := α) s with
    | ok a => exact .inl ⟨a, rfl⟩
    | error f => exact .inr ⟨_, rfl⟩
  · rw [hwhy]
    exact .inr ⟨why, rfl⟩

theorem Misnamed.value?_ne (h : row.Misnamed α column) (a : α) :
    row.value? column ≠ some (Value.ofName a) := by
  obtain ⟨t, hvalue, hname⟩ := h
  intro hnamed
  rw [hvalue] at hnamed
  cases hnamed
  exact hname a rfl

end Row

end Postgres

open Postgres Postgres.Value Postgres.Row

variable {row : Row}

namespace SyncRun

theorem ofColumns_eq_ok_iff {s : SyncRun} : ofColumns row = .ok s ↔
    row.get? "id" id? = some s.id ∧
    row.get? "layer_id" int4? = some s.layerId ∧
    row.value? "geometry_type" = some (ofName s.geometryType) ∧
    row.get? "dump_date" moment? = some s.dumpDate ∧
    row.get? "start_date" moment? = some s.startDate ∧
    row.get? "end_date" (nullable moment?) = some s.endDate ∧
    row.value? "status" = some (ofName s.status) ∧
    row.get? "total_files" (nullable int4?) = some s.totalFiles ∧
    row.get? "is_full" bool? = some s.isFull ∧
    row.get? "base_sync_id" (nullable id?) = some s.baseSyncId ∧
    row.get? "run_number" int4? = some s.runNumber ∧
    row.get? "metadata" (nullable json?) = some s.metadata := by
  cases s
  simp only [ofColumns, bind_eq_ok_iff, pure_eq_ok_iff, get_eq_ok_iff, getNamed_eq_ok_iff, mk.injEq,
    existsAndEq, and_true]

theorem ofColumns_storageBound : StorageBound (ofColumns row) :=
  .bind get_storageBound fun _ => .bind get_storageBound fun _ => .bind getNamed_storageBound fun _ =>
  .bind get_storageBound fun _ => .bind get_storageBound fun _ => .bind get_storageBound fun _ =>
  .bind getNamed_storageBound fun _ => .bind get_storageBound fun _ => .bind get_storageBound fun _ =>
  .bind get_storageBound fun _ => .bind get_storageBound fun _ => .bind get_storageBound fun _ =>
  .pure _

theorem ofColumns_refused
    (h : row.Misnamed SyncStatus "status" ∨ row.Misnamed GeometryType "geometry_type") :
    Refused (ofColumns row) := by
  refine ofColumns_storageBound.refused fun s hs => ?_
  obtain ⟨-, -, hgeometry, -, -, -, hstatus, -⟩ := ofColumns_eq_ok_iff.1 hs
  rcases h with h | h
  · exact h.value?_ne _ hstatus
  · exact h.value?_ne _ hgeometry

end SyncRun

namespace File

theorem ofColumns_eq_ok_iff {f : File} : ofColumns row = .ok f ↔
    row.get? "file_id" id? = some f.fileId ∧
    row.get? "sync_id" id? = some f.syncId ∧
    row.value? "status" = some (ofName f.status) ∧
    row.get? "total_entities" (nullable int4?) = some f.totalEntities ∧
    row.get? "start_date" moment? = some f.startDate ∧
    row.get? "end_date" (nullable moment?) = some f.endDate := by
  cases f
  simp only [ofColumns, bind_eq_ok_iff, pure_eq_ok_iff, get_eq_ok_iff, getNamed_eq_ok_iff, mk.injEq,
    existsAndEq, and_true]

theorem ofColumns_storageBound : StorageBound (ofColumns row) :=
  .bind get_storageBound fun _ => .bind get_storageBound fun _ => .bind getNamed_storageBound fun _ =>
  .bind get_storageBound fun _ => .bind get_storageBound fun _ => .bind get_storageBound fun _ =>
  .pure _

theorem ofColumns_refused (h : row.Misnamed FileStatus "status") : Refused (ofColumns row) :=
  ofColumns_storageBound.refused fun _ hf => h.value?_ne _ (ofColumns_eq_ok_iff.1 hf).2.2.1

end File

namespace Entity

theorem ofColumns_eq_ok_iff {e : Entity} : ofColumns row = .ok e ↔
    row.get? "entity_id" text? = some e.entityId.text ∧
    row.get? "file_id" id? = some e.fileId ∧
    row.get? "changeset_id" (nullable id?) = some e.changesetId ∧
    row.value? "status" = some (ofName e.status) ∧
    row.value? "action" = some (ofName e.action) ∧
    row.get? "fail_reason" (nullable text?) = some e.failReason := by
  obtain ⟨⟨_⟩, _⟩ := e
  simp only [ofColumns, bind_eq_ok_iff, pure_eq_ok_iff, get_eq_ok_iff, getNamed_eq_ok_iff, mk.injEq,
    EntityId.mk.injEq, existsAndEq, and_true]

theorem ofColumns_storageBound : StorageBound (ofColumns row) :=
  .bind get_storageBound fun _ => .bind get_storageBound fun _ => .bind get_storageBound fun _ =>
  .bind getNamed_storageBound fun _ => .bind getNamed_storageBound fun _ =>
  .bind get_storageBound fun _ => .pure _

theorem ofColumns_refused
    (h : row.Misnamed EntityStatus "status" ∨ row.Misnamed EntityAction "action") :
    Refused (ofColumns row) := by
  refine ofColumns_storageBound.refused fun e he => ?_
  obtain ⟨-, -, -, hstatus, haction, -⟩ := ofColumns_eq_ok_iff.1 he
  rcases h with h | h
  · exact h.value?_ne _ hstatus
  · exact h.value?_ne _ haction

end Entity

namespace EntityHistory

theorem ofColumns_eq_ok_iff {h : EntityHistory} : ofColumns row = .ok h ↔
    row.get? "entity_id" text? = some h.entityId.text ∧
    row.get? "file_id" id? = some h.fileId ∧
    row.get? "sync_id" id? = some h.syncId ∧
    row.get? "base_sync_id" (nullable id?) = some h.baseSyncId ∧
    row.get? "changeset_id" (nullable id?) = some h.changesetId ∧
    row.value? "status" = some (ofName h.status) ∧
    row.value? "action" = some (ofName h.action) ∧
    row.get? "fail_reason" (nullable text?) = some h.failReason := by
  obtain ⟨⟨_⟩, _⟩ := h
  simp only [ofColumns, bind_eq_ok_iff, pure_eq_ok_iff, get_eq_ok_iff, getNamed_eq_ok_iff, mk.injEq,
    EntityId.mk.injEq, existsAndEq, and_true]

theorem ofColumns_storageBound : StorageBound (ofColumns row) :=
  .bind get_storageBound fun _ => .bind get_storageBound fun _ => .bind get_storageBound fun _ =>
  .bind get_storageBound fun _ => .bind get_storageBound fun _ => .bind getNamed_storageBound fun _ =>
  .bind getNamed_storageBound fun _ => .bind get_storageBound fun _ => .pure _

theorem ofColumns_refused
    (h : row.Misnamed EntityStatus "status" ∨ row.Misnamed EntityAction "action") :
    Refused (ofColumns row) := by
  refine ofColumns_storageBound.refused fun e he => ?_
  obtain ⟨-, -, -, -, -, hstatus, haction, -⟩ := ofColumns_eq_ok_iff.1 he
  rcases h with h | h
  · exact h.value?_ne _ hstatus
  · exact h.value?_ne _ haction

end EntityHistory

end SyncCascade
