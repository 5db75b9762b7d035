import SyncCascade.Failure
import SyncCascade.Table
import SyncCascade.Uuid

/-!
# Identifiers of the sync hierarchy

Syncs, files and changesets have universally unique identifiers, kept apart by their types. An
entity's identifier comes from the source data and is unique within its file only, so an entity is
keyed by the file and the identifier.
-/

namespace SyncCascade

structure SyncId where
  uuid : Uuid
deriving DecidableEq, Repr, Inhabited

structure FileId where
  uuid : Uuid
deriving DecidableEq, Repr, Inhabited

structure ChangesetId where
  uuid : Uuid
deriving DecidableEq, Repr, Inhabited

/-- An identifier that is a universally unique one under a label. -/
class Identifier (α : Type) where
  label : String
  ofUuid : Uuid → α
  uuid : α → Uuid
  uuid_ofUuid : ∀ u, uuid (ofUuid u) = u
  uuid_injective : ∀ {a b : α}, uuid a = uuid b → a = b

instance : Identifier SyncId where
  label := "SyncId"
  ofUuid := SyncId.mk
  uuid := SyncId.uuid
  uuid_ofUuid _ := rfl
  uuid_injective {a b} h := by cases a; cases b; cases h; rfl

instance : Identifier FileId where
  label := "FileId"
  ofUuid := FileId.mk
  uuid := FileId.uuid
  uuid_ofUuid _ := rfl
  uuid_injective {a b} h := by cases a; cases b; cases h; rfl

instance : Identifier ChangesetId where
  label := "ChangesetId"
  ofUuid := ChangesetId.mk
  uuid := ChangesetId.uuid
  uuid_ofUuid _ := rfl
  uuid_injective {a b} h := by cases a; cases b; cases h; rfl

namespace Identifier

variable {α : Type} [Identifier α]

def text (a : α) : String := (uuid a).text

def parse? (s : String) : Option α := (Uuid.parse? s).map ofUuid

def parse (s : String) : Except Failure α :=
  match parse? s with
  | some a => .ok a
  | none => .error (.invalidPayload (label α ++ ": no universally unique identifier"))

end Identifier

instance : Key Uuid where
  decEq := inferInstance
  decLt := inferInstance
  irrefl _ := Nat.lt_irrefl _
  trans h₁ h₂ := Nat.lt_trans h₁ h₂
  connected a b := by
    rcases Nat.lt_trichotomy a.bits.toNat b.bits.toNat with h | h | h
    · exact .inl h
    · exact .inr (.inl (Uuid.ext_toNat h))
    · exact .inr (.inr h)

/-- Identifiers have the order of the universally unique ones in them. -/
@[reducible] def Identifier.key (α : Type) [Identifier α] [DecidableEq α] : Key α where
  lt a b := uuid a < uuid b
  decEq := inferInstance
  decLt a b := inferInstanceAs (Decidable (uuid a < uuid b))
  irrefl _ := Key.irrefl _
  trans h₁ h₂ := Key.trans (κ := Uuid) h₁ h₂
  connected a b := by
    rcases Key.connected (uuid a) (uuid b) with h | h | h
    · exact .inl h
    · exact .inr (.inl (uuid_injective h))
    · exact .inr (.inr h)

instance : Key SyncId := Identifier.key SyncId

instance : Key FileId := Identifier.key FileId

instance : Key ChangesetId := Identifier.key ChangesetId

structure EntityId where
  text : String
deriving DecidableEq, Repr, Inhabited

instance : LT EntityId := ⟨fun a b => a.text < b.text⟩

instance (a b : EntityId) : Decidable (a < b) := inferInstanceAs (Decidable (a.text < b.text))

/-- Entities are ordered by their file first. -/
structure EntityKey where
  file : FileId
  entity : EntityId
deriving DecidableEq, Repr, Inhabited

namespace EntityKey

instance : LT EntityKey := ⟨fun a b => a.file < b.file ∨ a.file = b.file ∧ a.entity.text < b.entity.text⟩

instance (a b : EntityKey) : Decidable (a < b) :=
  @instDecidableOr _ _ (Key.decLt a.file b.file)
    (@instDecidableAnd _ _ (Key.decEq a.file b.file)
      (Key.decLt a.entity.text b.entity.text))

theorem lt_iff {a b : EntityKey} :
    a < b ↔ a.file < b.file ∨ a.file = b.file ∧ a.entity.text < b.entity.text := Iff.rfl

instance : Key EntityKey where
  decEq := inferInstance
  decLt := inferInstance
  irrefl a h := by
    rcases h with h | ⟨_, h⟩
    · exact Key.irrefl _ h
    · exact String.lt_irrefl _ h
  trans {a b c} h₁ h₂ := by
    rcases h₁ with h₁ | ⟨e₁, h₁⟩ <;> rcases h₂ with h₂ | ⟨e₂, h₂⟩
    · exact .inl (Key.trans h₁ h₂)
    · exact .inl (e₂ ▸ h₁)
    · exact .inl (e₁ ▸ h₂)
    · exact .inr ⟨e₁.trans e₂, String.lt_trans h₁ h₂⟩
  connected a b := by
    obtain ⟨fa, ⟨ea⟩⟩ := a
    obtain ⟨fb, ⟨eb⟩⟩ := b
    rcases Key.connected fa fb with h | h | h
    · exact .inl (.inl h)
    · subst h
      rcases Std.lt_trichotomy ea eb with h | h | h
      · exact .inl (.inr ⟨rfl, h⟩)
      · exact .inr (.inl (h ▸ rfl))
      · exact .inr (.inr (.inr ⟨rfl, h⟩))
    · exact .inr (.inr (.inl h))

end EntityKey

end SyncCascade
