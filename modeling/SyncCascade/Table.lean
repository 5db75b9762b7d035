/-!
# Tables

A table holds rows under distinct keys, in the order of the keys. The order is part of the type, so
every table is a finite map that can be scanned in one way only.
-/

namespace SyncCascade

/-- Keys have a decidable strict linear order. -/
class Key (κ : Type) extends LT κ where
  decEq : DecidableEq κ
  decLt : (a b : κ) → Decidable (a < b)
  irrefl : ∀ a : κ, ¬ a < a
  trans : ∀ {a b c : κ}, a < b → b < c → a < c
  connected : ∀ a b : κ, a < b ∨ a = b ∨ b < a

namespace Key

variable {κ : Type} [Key κ]

instance (priority := low) : DecidableEq κ := Key.decEq

instance (priority := low) (a b : κ) : Decidable (a < b) := Key.decLt a b

theorem ne_of_lt {a b : κ} (h : a < b) : a ≠ b := fun e => Key.irrefl b (e ▸ h)

theorem lt_of_not {a b : κ} (h : ¬ a < b) (hne : a ≠ b) : b < a := by
  rcases Key.connected a b with h' | h' | h'
  · exact absurd h' h
  · exact absurd h' hne
  · exact h'

end Key

instance : Key String where
  decEq := inferInstance
  decLt := inferInstance
  irrefl := String.lt_irrefl
  trans := String.lt_trans
  connected := Std.lt_trichotomy

instance : Key Nat where
  decEq := inferInstance
  decLt := inferInstance
  irrefl := Nat.lt_irrefl
  trans := Nat.lt_trans
  connected := Nat.lt_trichotomy

structure Table (κ ρ : Type) [Key κ] where
  entries : List (κ × ρ)
  sorted : entries.Pairwise fun a b => a.1 < b.1

namespace Table

variable {κ ρ : Type} [Key κ]

theorem ext {s t : Table κ ρ} (h : s.entries = t.entries) : s = t := by
  cases s; cases t; cases h; rfl

instance [DecidableEq ρ] : DecidableEq (Table κ ρ) := fun s t =>
  decidable_of_iff (s.entries = t.entries) ⟨ext, fun h => h ▸ rfl⟩

def empty : Table κ ρ := ⟨[], .nil⟩

instance : Inhabited (Table κ ρ) := ⟨empty⟩

def rows (t : Table κ ρ) : List ρ := t.entries.map Prod.snd

def keys (t : Table κ ρ) : List κ := t.entries.map Prod.fst

def size (t : Table κ ρ) : Nat := t.entries.length

def find? (t : Table κ ρ) (k : κ) : Option ρ :=
  (t.entries.find? fun e => decide (e.1 = k)).map Prod.snd

def contains (t : Table κ ρ) (k : κ) : Bool := (t.find? k).isSome

def insertEntry (k : κ) (r : ρ) : List (κ × ρ) → List (κ × ρ)
  | [] => [(k, r)]
  | e :: rest =>
    if k < e.1 then (k, r) :: e :: rest
    else if k = e.1 then (k, r) :: rest
    else e :: insertEntry k r rest

theorem mem_insertEntry {k : κ} {r : ρ} {es : List (κ × ρ)} {e : κ × ρ}
    (h : e ∈ insertEntry k r es) : e = (k, r) ∨ e ∈ es := by
  induction es with
  | nil => simpa [insertEntry] using h
  | cons e' rest ih =>
    simp only [insertEntry] at h
    split at h
    · simpa using h
    · split at h
      · rcases List.mem_cons.1 h with h | h
        · exact .inl h
        · exact .inr (List.mem_cons_of_mem _ h)
      · rcases List.mem_cons.1 h with h | h
        · exact .inr (h ▸ List.mem_cons_self)
        · exact (ih h).imp_right (List.mem_cons_of_mem _)

theorem pairwise_insertEntry {k : κ} {r : ρ} {es : List (κ × ρ)}
    (h : es.Pairwise fun a b => a.1 < b.1) :
    (insertEntry k r es).Pairwise fun a b => a.1 < b.1 := by
  induction es with
  | nil => simp [insertEntry]
  | cons e rest ih =>
    have ⟨hhead, htail⟩ := List.pairwise_cons.1 h
    simp only [insertEntry]
    split
    next hlt =>
      refine List.pairwise_cons.2 ⟨fun b hb => ?_, h⟩
      rcases List.mem_cons.1 hb with hb | hb
      · exact hb ▸ hlt
      · exact Key.trans hlt (hhead b hb)
    next hnlt =>
      split
      next heq => exact List.pairwise_cons.2 ⟨fun b hb => heq ▸ hhead b hb, htail⟩
      next hne =>
        refine List.pairwise_cons.2 ⟨fun b hb => ?_, ih htail⟩
        rcases mem_insertEntry hb with hb | hb
        · exact hb ▸ Key.lt_of_not hnlt hne
        · exact hhead b hb

/-- With the row `r` under `k`, in place of the row that was there. -/
def insert (t : Table κ ρ) (k : κ) (r : ρ) : Table κ ρ :=
  ⟨insertEntry k r t.entries, pairwise_insertEntry t.sorted⟩

def filter (t : Table κ ρ) (p : κ → ρ → Bool) : Table κ ρ :=
  ⟨t.entries.filter fun e => p e.1 e.2, t.sorted.filter _⟩

def erase (t : Table κ ρ) (k : κ) : Table κ ρ := t.filter fun k' _ => !decide (k' = k)

def mapRows (t : Table κ ρ) (f : κ → ρ → ρ) : Table κ ρ :=
  ⟨t.entries.map fun e => (e.1, f e.1 e.2), List.pairwise_map.2 t.sorted⟩

def modify (t : Table κ ρ) (k : κ) (f : ρ → ρ) : Table κ ρ :=
  t.mapRows fun k' r => if k' = k then f r else r

end Table

end SyncCascade
