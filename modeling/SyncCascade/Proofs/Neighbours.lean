import SyncCascade.Neighbours
import SyncCascade.Table

/-!
# Lists without repeated neighbours

Dropping repeated neighbours loses no element. In a sorted list it leaves each element once, in
ascending order.
-/

namespace SyncCascade

variable {α : Type} [DecidableEq α] {as : List α}

theorem mem_dropRepeats {a : α} : a ∈ dropRepeats as ↔ a ∈ as := by
  induction as with
  | nil => rfl
  | cons b rest ih =>
    cases rest with
    | nil => rfl
    | cons c rest =>
      unfold dropRepeats
      split
      next heq => rw [ih, heq]; simp
      next => rw [List.mem_cons, ih, ← List.mem_cons]

theorem pairwise_dropRepeats [Key α] (h : as.Pairwise fun a b => a < b ∨ a = b) :
    (dropRepeats as).Pairwise (· < ·) := by
  induction as with
  | nil => exact .nil
  | cons a rest ih =>
    obtain ⟨hhead, hrest⟩ := List.pairwise_cons.1 h
    cases rest with
    | nil => exact List.pairwise_singleton _ a
    | cons b rest =>
      unfold dropRepeats
      split
      next => exact ih hrest
      next hne =>
        refine List.pairwise_cons.2 ⟨fun c hc => ?_, ih hrest⟩
        have hlt : a < b := (hhead b List.mem_cons_self).resolve_right hne
        rcases List.mem_cons.1 (mem_dropRepeats.1 hc) with rfl | hc
        · exact hlt
        · rcases (List.pairwise_cons.1 hrest).1 c hc with hbc | rfl
          · exact Key.trans hlt hbc
          · exact hlt

end SyncCascade
