import SyncCascade.Closure
import SyncCascade.Proofs.Spelling

/-!
# The members of a job

The handler reads all members of a job before it does anything: each one is spelled as an identifier, or
the job is refused for the first that is not.
-/

namespace SyncCascade

/-- The texts spell the identifiers, one each. -/
abbrev Uuid.AllSpelledBy (us : List Uuid) (ids : List String) : Prop :=
  List.Forall₂ Uuid.SpelledBy us ids

/-- No identifier is spelled like this. -/
def Malformed (s : String) : Prop := ∀ u : Uuid, ¬ u.SpelledBy s

theorem malformed_iff {s : String} : Malformed s ↔ Uuid.parse? s = none := by
  rw [Option.eq_none_iff_forall_ne_some]
  exact forall_congr' fun u => not_congr Uuid.parse?_eq_some_iff.symm

instance (s : String) : Decidable (Malformed s) := decidable_of_iff _ malformed_iff.symm

namespace Identifier

variable {α : Type} [Identifier α] {s : String}

theorem parse_of_spelled {u : Uuid} (h : u.SpelledBy s) : parse s = .ok (ofUuid u : α) := by
  unfold parse parse?
  rw [Uuid.parse?_eq_some_iff.2 h]
  rfl

theorem parse_of_malformed (h : Malformed s) :
    (parse s : Except Failure α) =
      .error (.invalidPayload (label α ++ ": no universally unique identifier")) := by
  unfold parse parse?
  rw [malformed_iff.1 h]
  rfl

end Identifier

namespace Engine

variable {α : Type} [Identifier α] {us : List Uuid} {ids : List String}

theorem parseMembers_of_spelled (h : Uuid.AllSpelledBy us ids) :
    parseMembers ids = .ok (us.map (Identifier.ofUuid : Uuid → α)) := by
  induction h with
  | nil => rfl
  | cons hs hrest ih =>
    rw [parseMembers, Identifier.parse_of_spelled hs, ih]
    rfl

theorem allSpelledBy_or_malformed (ids : List String) :
    (∃ us, Uuid.AllSpelledBy us ids) ∨ ∃ s ∈ ids, Malformed s := by
  induction ids with
  | nil => exact .inl ⟨[], .nil⟩
  | cons s rest ih =>
    by_cases hs : ∃ u : Uuid, u.SpelledBy s
    · obtain ⟨u, hu⟩ := hs
      rcases ih with ⟨us, hus⟩ | ⟨s', hs', hbad⟩
      · exact .inl ⟨u :: us, .cons hu hus⟩
      · exact .inr ⟨s', List.mem_cons_of_mem _ hs', hbad⟩
    · exact .inr ⟨s, List.mem_cons_self, fun u hu => hs ⟨u, hu⟩⟩

theorem parseMembers_of_malformed (h : ∃ s ∈ ids, Malformed s) :
    (parseMembers ids : Except Failure (List α)) =
      .error (.invalidPayload (Identifier.label α ++ ": no universally unique identifier")) := by
  induction ids with
  | nil => simp at h
  | cons s rest ih =>
    rw [parseMembers]
    by_cases hs : ∃ u : Uuid, u.SpelledBy s
    · obtain ⟨u, hu⟩ := hs
      obtain ⟨s', hs', hbad⟩ := h
      have hrest : s' ∈ rest := (List.mem_cons.1 hs').resolve_left fun heq => hbad u (heq ▸ hu)
      rw [Identifier.parse_of_spelled hu, ih ⟨s', hrest, hbad⟩]
      rfl
    · rw [Identifier.parse_of_malformed fun u hu => hs ⟨u, hu⟩]
      rfl

end Engine

end SyncCascade
