import SyncCascade.Table

/-!
# Looking up rows

What a table holds under a key after each operation. The order of the entries matters to no other
module: a row is found under its key exactly if the pair is an entry.
-/

namespace SyncCascade.Table

variable {κ ρ : Type} [Key κ]

theorem eq_of_mem_entries {es : List (κ × ρ)} (hs : es.Pairwise fun a b => a.1 < b.1)
    {a b : κ × ρ} (ha : a ∈ es) (hb : b ∈ es) (hk : a.1 = b.1) : a = b := by
  induction es with
  | nil => cases ha
  | cons e rest ih =>
    obtain ⟨hhead, htail⟩ := List.pairwise_cons.1 hs
    rcases List.mem_cons.1 ha with rfl | ha' <;> rcases List.mem_cons.1 hb with rfl | hb'
    · rfl
    · exact absurd hk (Key.ne_of_lt (hhead b hb'))
    · exact absurd hk.symm (Key.ne_of_lt (hhead a ha'))
    · exact ih htail ha' hb'

theorem find?_eq_some_iff (t : Table κ ρ) (k : κ) (r : ρ) :
    t.find? k = some r ↔ (k, r) ∈ t.entries := by
  simp only [find?, Option.map_eq_some_iff]
  constructor
  · rintro ⟨e, he, rfl⟩
    have hk : e.1 = k := by simpa using List.find?_some he
    exact hk ▸ List.mem_of_find?_eq_some he
  · intro hm
    cases hf : t.entries.find? (fun e => decide (e.1 = k)) with
    | none => simpa using List.find?_eq_none.1 hf _ hm
    | some e =>
      have hk : e.1 = k := by simpa using List.find?_some hf
      have he := eq_of_mem_entries t.sorted (List.mem_of_find?_eq_some hf) hm hk
      exact ⟨e, rfl, he ▸ rfl⟩

theorem find?_eq_none_iff (t : Table κ ρ) (k : κ) :
    t.find? k = none ↔ ∀ r, (k, r) ∉ t.entries := by
  simp only [Option.eq_none_iff_forall_ne_some, Ne, find?_eq_some_iff]

theorem find?_eq_of_forall {t : Table κ ρ} {k : κ} {o : Option ρ}
    (h : ∀ r, (k, r) ∈ t.entries ↔ o = some r) : t.find? k = o := by
  apply Option.ext
  intro r
  rw [find?_eq_some_iff, h r]

theorem mem_rows {t : Table κ ρ} {r : ρ} : r ∈ t.rows ↔ ∃ k, t.find? k = some r := by
  simp only [rows, List.mem_map, find?_eq_some_iff]
  constructor
  · rintro ⟨⟨k, r'⟩, he, rfl⟩
    exact ⟨k, he⟩
  · rintro ⟨k, he⟩
    exact ⟨(k, r), he, rfl⟩

theorem contains_eq_true {t : Table κ ρ} {k : κ} :
    t.contains k = true ↔ ∃ r, t.find? k = some r := by
  rw [contains, Option.isSome_iff_exists]

theorem contains_eq_false {t : Table κ ρ} {k : κ} :
    t.contains k = false ↔ t.find? k = none := by
  simp [contains]

theorem ne_of_free {t : Table κ ρ} {k k' : κ} {r : ρ} (hfree : t.contains k = false)
    (hr : t.find? k' = some r) : k' ≠ k := by
  rintro rfl
  rw [contains_eq_false.1 hfree] at hr
  cases hr

theorem found_or_free (t : Table κ ρ) (k : κ) :
    (∃ r, t.find? k = some r) ∨ t.contains k = false := by
  cases h : t.contains k with
  | true => exact .inl (contains_eq_true.1 h)
  | false => exact .inr rfl

theorem contains_of_size_eq_zero {t : Table κ ρ} (h : t.size = 0) (k : κ) : t.contains k = false := by
  have hentries : t.entries = [] := List.eq_nil_of_length_eq_zero h
  rw [contains_eq_false, find?_eq_none_iff, hentries]
  exact fun _ => List.not_mem_nil

theorem mem_insertEntry_iff {k : κ} {r : ρ} {es : List (κ × ρ)}
    (hs : es.Pairwise fun a b => a.1 < b.1) {e : κ × ρ} :
    e ∈ insertEntry k r es ↔ e = (k, r) ∨ e ∈ es ∧ e.1 ≠ k := by
  induction es with
  | nil => simp [insertEntry]
  | cons x rest ih =>
    obtain ⟨hhead, htail⟩ := List.pairwise_cons.1 hs
    simp only [insertEntry]
    split
    next hlt =>
      have hall : ∀ b ∈ x :: rest, b.1 ≠ k := by
        intro b hb
        rcases List.mem_cons.1 hb with rfl | hb
        · exact (Key.ne_of_lt hlt).symm
        · exact (Key.ne_of_lt (Key.trans hlt (hhead b hb))).symm
      rw [List.mem_cons]
      exact or_congr_right ⟨fun h => ⟨h, hall e h⟩, fun h => h.1⟩
    next hnlt =>
      split
      next heq =>
        have hall : ∀ b ∈ rest, b.1 ≠ k := fun b hb => heq ▸ (Key.ne_of_lt (hhead b hb)).symm
        rw [List.mem_cons, List.mem_cons]
        constructor
        · rintro (rfl | h)
          · exact .inl rfl
          · exact .inr ⟨.inr h, hall e h⟩
        · rintro (rfl | ⟨rfl | h, hne⟩)
          · exact .inl rfl
          · exact absurd heq.symm hne
          · exact .inr h
      next hne =>
        rw [List.mem_cons, List.mem_cons, ih htail]
        constructor
        · rintro (rfl | h | ⟨h, hk⟩)
          · exact .inr ⟨.inl rfl, Ne.symm hne⟩
          · exact .inl h
          · exact .inr ⟨.inr h, hk⟩
        · rintro (h | ⟨rfl | h, hk⟩)
          · exact .inr (.inl h)
          · exact .inl rfl
          · exact .inr (.inr ⟨h, hk⟩)

theorem find?_insert (t : Table κ ρ) (k k' : κ) (r : ρ) :
    (t.insert k r).find? k' = if k' = k then some r else t.find? k' := by
  apply find?_eq_of_forall
  intro r'
  rw [insert, mem_insertEntry_iff t.sorted]
  by_cases h : k' = k
  · subst h
    simp [eq_comm]
  · simp [h, find?_eq_some_iff]

theorem find?_insert_of_free {t : Table κ ρ} {k k' : κ} {r r' : ρ} (hfree : t.contains k = false)
    (hr' : t.find? k' = some r') : (t.insert k r).find? k' = some r' := by
  rw [find?_insert, if_neg (ne_of_free hfree hr')]
  exact hr'

theorem eq_of_find?_insert {t : Table κ ρ} {k k' : κ} {r r' : ρ}
    (h : (t.insert k r).find? k' = some r') (hfree : t.contains k' = false) : k' = k ∧ r' = r := by
  rw [find?_insert] at h
  split at h
  next hk =>
    cases h
    exact ⟨hk, rfl⟩
  next => exact (ne_of_free hfree h rfl).elim

@[simp] theorem contains_insert (t : Table κ ρ) (k k' : κ) (r : ρ) :
    (t.insert k r).contains k' = (decide (k' = k) || t.contains k') := by
  simp only [contains, find?_insert]
  by_cases h : k' = k <;> simp [h]

theorem insertEntry_perm {k : κ} {r : ρ} {es : List (κ × ρ)} (h : ∀ r', (k, r') ∉ es) :
    (insertEntry k r es).Perm ((k, r) :: es) := by
  induction es with
  | nil => exact .refl _
  | cons x rest ih =>
    have hx : k ≠ x.1 := fun hk => h x.2 (by rw [hk]; exact List.mem_cons_self)
    have hrest := ih fun r' hm => h r' (List.mem_cons_of_mem _ hm)
    simp only [insertEntry, if_neg hx]
    split
    · exact .refl _
    · exact (hrest.cons x).trans (.swap _ _ _)

theorem rows_insert_perm {t : Table κ ρ} {k : κ} {r : ρ} (h : t.contains k = false) :
    (t.insert k r).rows.Perm (r :: t.rows) :=
  (insertEntry_perm ((find?_eq_none_iff t k).1 (contains_eq_false.1 h))).map Prod.snd

theorem length_rows (t : Table κ ρ) : t.rows.length = t.size := List.length_map _

theorem size_insert {t : Table κ ρ} {k : κ} {r : ρ} (h : t.contains k = false) :
    (t.insert k r).size = t.size + 1 := by
  have hlength := (rows_insert_perm (r := r) h).length_eq
  rwa [List.length_cons, length_rows, length_rows] at hlength

theorem find?_filter (t : Table κ ρ) (p : κ → ρ → Bool) (k : κ) :
    (t.filter p).find? k = (t.find? k).filter (p k) := by
  apply find?_eq_of_forall
  intro r
  rw [filter, List.mem_filter, Option.filter_eq_some_iff, find?_eq_some_iff]

theorem size_filter_le (t : Table κ ρ) (p : κ → ρ → Bool) : (t.filter p).size ≤ t.size :=
  List.length_filter_le _ _

theorem find?_erase (t : Table κ ρ) (k k' : κ) :
    (t.erase k).find? k' = if k' = k then none else t.find? k' := by
  rw [erase, find?_filter]
  by_cases h : k' = k
  · rw [if_pos h, Option.filter_eq_none_iff]
    simp [h]
  · cases t.find? k' <;> simp [h]

@[simp] theorem contains_erase (t : Table κ ρ) (k k' : κ) :
    (t.erase k).contains k' = (!decide (k' = k) && t.contains k') := by
  simp only [contains, find?_erase]
  by_cases h : k' = k <;> simp [h]

theorem perm_filter_ne {k : κ} {r : ρ} {es : List (κ × ρ)}
    (hs : es.Pairwise fun a b => a.1 < b.1) (hm : (k, r) ∈ es) :
    es.Perm ((k, r) :: es.filter fun e => !decide (e.1 = k)) := by
  induction es with
  | nil => cases hm
  | cons x rest ih =>
    obtain ⟨hhead, htail⟩ := List.pairwise_cons.1 hs
    rcases List.mem_cons.1 hm with rfl | hm
    · have hall : rest.filter (fun e => !decide (e.1 = k)) = rest := by
        rw [List.filter_eq_self]
        intro e he
        simpa using (Key.ne_of_lt (hhead e he)).symm
      simp [hall]
    · have hx : x.1 ≠ k := Key.ne_of_lt (hhead _ hm)
      rw [List.filter_cons_of_pos (by simpa using hx)]
      exact ((ih htail hm).cons x).trans (.swap _ _ _)

theorem rows_erase_perm {t : Table κ ρ} {k : κ} {r : ρ} (h : t.find? k = some r) :
    t.rows.Perm (r :: (t.erase k).rows) :=
  (perm_filter_ne t.sorted ((find?_eq_some_iff t k r).1 h)).map Prod.snd

theorem size_erase {t : Table κ ρ} {k : κ} (h : t.contains k = true) :
    (t.erase k).size + 1 = t.size := by
  obtain ⟨r, hr⟩ := contains_eq_true.1 h
  have hlength := (rows_erase_perm hr).length_eq
  rw [List.length_cons, length_rows, length_rows] at hlength
  exact hlength.symm

/-- What identifies the rows by their keys differs from row to row. -/
theorem nodup_map_rows {t : Table κ ρ} {f : ρ → κ} (hf : ∀ k r, t.find? k = some r → f r = k) :
    (t.rows.map f).Nodup := by
  have hkeys : t.rows.map f = t.keys := by
    rw [rows, List.map_map]
    exact List.map_congr_left fun e he => hf e.1 e.2 ((find?_eq_some_iff t e.1 e.2).2 he)
  rw [hkeys, keys, List.nodup_iff_pairwise_ne, List.pairwise_map]
  exact t.sorted.imp Key.ne_of_lt

theorem find?_mapRows (t : Table κ ρ) (f : κ → ρ → ρ) (k : κ) :
    (t.mapRows f).find? k = (t.find? k).map (f k) := by
  apply find?_eq_of_forall
  intro r
  rw [mapRows, List.mem_map, Option.map_eq_some_iff]
  constructor
  · rintro ⟨⟨k', r'⟩, he, heq⟩
    cases heq
    exact ⟨r', (find?_eq_some_iff _ _ _).2 he, rfl⟩
  · rintro ⟨r', he, rfl⟩
    exact ⟨(k, r'), (find?_eq_some_iff _ _ _).1 he, rfl⟩

theorem find?_modify (t : Table κ ρ) (k k' : κ) (f : ρ → ρ) :
    (t.modify k f).find? k' = if k' = k then (t.find? k').map f else t.find? k' := by
  rw [modify, find?_mapRows]
  by_cases h : k' = k <;> simp [h]

@[simp] theorem contains_mapRows (t : Table κ ρ) (f : κ → ρ → ρ) (k : κ) :
    (t.mapRows f).contains k = t.contains k := by
  simp only [contains, find?_mapRows, Option.isSome_map]

@[simp] theorem contains_modify (t : Table κ ρ) (k k' : κ) (f : ρ → ρ) :
    (t.modify k f).contains k' = t.contains k' := contains_mapRows t _ k'

@[simp] theorem size_mapRows (t : Table κ ρ) (f : κ → ρ → ρ) : (t.mapRows f).size = t.size := by
  rw [size, size, mapRows, List.length_map]

@[simp] theorem size_modify (t : Table κ ρ) (k : κ) (f : ρ → ρ) : (t.modify k f).size = t.size :=
  size_mapRows t _

theorem rows_mapRows (t : Table κ ρ) (f : κ → ρ → ρ) :
    (t.mapRows f).rows = t.entries.map fun e => f e.1 e.2 := List.map_map

theorem mapRows_congr {t : Table κ ρ} {f g : κ → ρ → ρ}
    (h : ∀ k r, t.find? k = some r → f k r = g k r) : t.mapRows f = t.mapRows g := by
  apply ext
  refine List.map_congr_left fun e he => ?_
  rw [h e.1 e.2 ((find?_eq_some_iff t e.1 e.2).2 he)]

theorem mapRows_id (t : Table κ ρ) : (t.mapRows fun _ r => r) = t := by
  apply ext
  simp only [mapRows, List.map_id']

theorem modify_id (t : Table κ ρ) (k : κ) : (t.modify k fun r => r) = t := by
  unfold modify
  simp only [ite_self, mapRows_id]

/-- A changed row that is not selected, before or after, leaves the selection as it is. -/
theorem filter_rows_modify {t : Table κ ρ} {k : κ} {f : ρ → ρ} {p : ρ → Bool}
    (h : ∀ r, t.find? k = some r → p r = false ∧ p (f r) = false) :
    (t.modify k f).rows.filter p = t.rows.filter p := by
  have hentries : ∀ e ∈ t.entries, e.1 = k → p e.2 = false ∧ p (f e.2) = false := by
    rintro ⟨k', r⟩ he rfl
    exact h r ((find?_eq_some_iff t _ r).2 he)
  rw [modify, rows_mapRows, rows]
  generalize t.entries = es at hentries ⊢
  induction es with
  | nil => rfl
  | cons e rest ih =>
    have hrest := ih fun e' he' => hentries e' (List.mem_cons_of_mem _ he')
    simp only [List.map_cons, List.filter_cons] at hrest ⊢
    by_cases hk : e.1 = k
    · obtain ⟨hbefore, hafter⟩ := hentries e List.mem_cons_self hk
      rw [if_pos hk, hbefore, hafter, if_neg Bool.false_ne_true, if_neg Bool.false_ne_true, hrest]
    · rw [if_neg hk, hrest]

/-- How many rows satisfy `p` under their keys. -/
def count (t : Table κ ρ) (p : κ → ρ → Bool) : Nat := t.entries.countP fun e => p e.1 e.2

theorem countP_rows (t : Table κ ρ) (p : ρ → Bool) : t.rows.countP p = t.count fun _ r => p r :=
  List.countP_map

theorem count_pos {t : Table κ ρ} {p : κ → ρ → Bool} {k : κ} {r : ρ} (hr : t.find? k = some r)
    (hp : p k r = true) : 0 < t.count p :=
  List.countP_pos_iff.2 ⟨(k, r), (find?_eq_some_iff t k r).1 hr, hp⟩

theorem count_mono {t : Table κ ρ} {p q : κ → ρ → Bool}
    (h : ∀ k r, t.find? k = some r → p k r = true → q k r = true) : t.count p ≤ t.count q :=
  List.countP_mono_left fun e he => h e.1 e.2 ((find?_eq_some_iff t e.1 e.2).2 he)

theorem count_congr {t : Table κ ρ} {p q : κ → ρ → Bool}
    (h : ∀ k r, t.find? k = some r → p k r = q k r) : t.count p = t.count q := by
  apply Nat.le_antisymm
  · exact count_mono fun k r hr hp => (h k r hr) ▸ hp
  · exact count_mono fun k r hr hq => (h k r hr).symm ▸ hq

theorem count_mapRows (t : Table κ ρ) (f : κ → ρ → ρ) (p : κ → ρ → Bool) :
    (t.mapRows f).count p = t.count fun k r => p k (f k r) :=
  List.countP_map

theorem count_filter (t : Table κ ρ) (p q : κ → ρ → Bool) :
    (t.filter p).count q = t.count fun k r => q k r && p k r :=
  List.countP_filter

theorem count_split (t : Table κ ρ) (p q : κ → ρ → Bool) :
    t.count p = (t.filter q).count p + (t.filter fun k r => !q k r).count p :=
  List.countP_eq_countP_filter_add ..

/-- As many rows satisfy `p` as the weaker `q`, so the same ones do. -/
theorem of_count_eq {t : Table κ ρ} {p q : κ → ρ → Bool}
    (hpq : ∀ k r, t.find? k = some r → p k r = true → q k r = true) (h : t.count p = t.count q)
    {k : κ} {r : ρ} (hr : t.find? k = some r) (hq : q k r = true) : p k r = true := by
  have hle : t.count p ≤ (t.filter p).count q := by
    rw [count_filter]
    refine count_mono fun k r hr hp => ?_
    rw [Bool.and_eq_true]
    exact ⟨hpq k r hr hp, hp⟩
  have hsplit := t.count_split q p
  cases hp : p k r with
  | true => rfl
  | false =>
    have hpos : 0 < (t.filter fun k r => !p k r).count q := by
      rw [count_filter]
      exact count_pos hr (by simp [hq, hp])
    omega

/-- The table `t'` has rows under the same keys as `t`, each one related to the row before. -/
def Revised (R : κ → ρ → ρ → Prop) (t t' : Table κ ρ) : Prop :=
  ∃ g, t' = t.mapRows g ∧ ∀ k r, t.find? k = some r → R k r (g k r)

variable {R S : κ → ρ → ρ → Prop} {t t' t'' : Table κ ρ}

theorem mapRows_mapRows (t : Table κ ρ) (f g : κ → ρ → ρ) :
    (t.mapRows f).mapRows g = t.mapRows fun k r => g k (f k r) := by
  apply ext
  simp only [mapRows, List.map_map]
  rfl

/-- A change of one row that does not look at what `forget` takes away, can be made after that. -/
theorem mapRows_modify (t : Table κ ρ) (k : κ) {f g forget : ρ → ρ}
    (hfg : ∀ r, forget (f r) = g (forget r)) :
    (t.modify k f).mapRows (fun _ r => forget r) = (t.mapRows fun _ r => forget r).modify k g := by
  unfold modify
  rw [mapRows_mapRows, mapRows_mapRows]
  congr 1
  funext k' r
  split
  · exact hfg r
  · rfl

theorem Revised.refl (hR : ∀ k r, t.find? k = some r → R k r r) : t.Revised R t := by
  refine ⟨fun _ r => r, (mapRows_id t).symm, hR⟩

theorem revised_modify (t : Table κ ρ) (k : κ) (f : ρ → ρ) :
    t.Revised (fun k' r r' => r' = if k' = k then f r else r) (t.modify k f) :=
  ⟨_, rfl, fun _ _ _ => rfl⟩

theorem Revised.find? (h : t.Revised R t') {k : κ} {r : ρ} (hr : t.find? k = some r) :
    ∃ r', t'.find? k = some r' ∧ R k r r' := by
  obtain ⟨g, rfl, hg⟩ := h
  refine ⟨g k r, ?_, hg k r hr⟩
  rw [find?_mapRows, hr, Option.map_some]

theorem Revised.find?_back (h : t.Revised R t') {k : κ} {r' : ρ} (hr' : t'.find? k = some r') :
    ∃ r, t.find? k = some r ∧ R k r r' := by
  obtain ⟨g, rfl, hg⟩ := h
  rw [find?_mapRows] at hr'
  obtain ⟨r, hr, rfl⟩ := Option.map_eq_some_iff.1 hr'
  exact ⟨r, hr, hg k r hr⟩

theorem Revised.mono (h : t.Revised R t')
    (hRS : ∀ k r r', t.find? k = some r → t'.find? k = some r' → R k r r' → S k r r') :
    t.Revised S t' := by
  obtain ⟨g, rfl, hg⟩ := h
  refine ⟨g, rfl, fun k r hr => hRS k r _ hr ?_ (hg k r hr)⟩
  rw [find?_mapRows, hr, Option.map_some]

theorem Revised.trans {R' : κ → ρ → ρ → Prop} (h : t.Revised R t') (h' : t'.Revised R' t'')
    (hS : ∀ k r r' r'', t.find? k = some r → t'.find? k = some r' → R k r r' → R' k r' r'' →
      S k r r'') : t.Revised S t'' := by
  obtain ⟨g, rfl, hg⟩ := h
  obtain ⟨g', rfl, hg'⟩ := h'
  refine ⟨_, mapRows_mapRows t g g', fun k r hr => ?_⟩
  have hr' : (t.mapRows g).find? k = some (g k r) := by rw [find?_mapRows, hr, Option.map_some]
  exact hS k r (g k r) _ hr hr' (hg k r hr) (hg' k _ hr')

theorem Revised.count_le {p q : κ → ρ → Bool} (h : t.Revised R t')
    (hpq : ∀ k r r', R k r r' → p k r = true → q k r' = true) : t.count p ≤ t'.count q := by
  obtain ⟨g, rfl, hg⟩ := h
  rw [count_mapRows]
  exact count_mono fun k r hr => hpq k r _ (hg k r hr)

theorem Revised.count_eq {p q : κ → ρ → Bool} (h : t.Revised R t')
    (hpq : ∀ k r r', R k r r' → p k r = q k r') : t.count p = t'.count q := by
  obtain ⟨g, rfl, hg⟩ := h
  rw [count_mapRows]
  exact count_congr fun k r hr => hpq k r _ (hg k r hr)

theorem Revised.map_filter_rows {σ : Type} {p : ρ → Bool} {f : ρ → σ} (h : t.Revised R t')
    (hR : ∀ k r r', R k r r' → p r' = p r ∧ f r' = f r) :
    (t'.rows.filter p).map f = (t.rows.filter p).map f := by
  obtain ⟨g, rfl, hg⟩ := h
  have hsame : ∀ e ∈ t.entries, p (g e.1 e.2) = p e.2 ∧ f (g e.1 e.2) = f e.2 :=
    fun e he => hR _ _ _ (hg e.1 e.2 ((find?_eq_some_iff t e.1 e.2).2 he))
  rw [rows_mapRows, rows]
  generalize t.entries = es at hsame ⊢
  induction es with
  | nil => rfl
  | cons e rest ih =>
    obtain ⟨hp, hf⟩ := hsame e List.mem_cons_self
    have hrest := ih fun e' he' => hsame e' (List.mem_cons_of_mem _ he')
    rw [List.map_cons, List.map_cons, List.filter_cons, List.filter_cons, hp]
    split
    · rw [List.map_cons, List.map_cons, hf, hrest]
    · exact hrest

theorem Revised.find?_map_eq {σ : Type} {f : ρ → σ} (h : t.Revised R t') (h' : t.Revised S t'')
    (hf : ∀ k r r' r'', R k r r' → S k r r'' → f r' = f r'') (k : κ) :
    (t'.find? k).map f = (t''.find? k).map f := by
  obtain ⟨g, rfl, hg⟩ := h
  obtain ⟨g', rfl, hg'⟩ := h'
  rw [find?_mapRows, find?_mapRows]
  cases hr : t.find? k with
  | none => rfl
  | some r => exact congrArg some (hf k r _ _ (hg k r hr) (hg' k r hr))

theorem Revised.count_eq_count {p : κ → ρ → Bool} (h : t.Revised R t') (h' : t.Revised S t'')
    (hp : ∀ k r r' r'', R k r r' → S k r r'' → p k r' = p k r'') : t'.count p = t''.count p := by
  obtain ⟨g, rfl, hg⟩ := h
  obtain ⟨g', rfl, hg'⟩ := h'
  rw [count_mapRows, count_mapRows]
  exact count_congr fun k r hr => hp k r _ _ (hg k r hr) (hg' k r hr)

section Paired

variable {τ : Type}

/-- The tables have the same keys, and their rows are related. -/
def Paired (Q : ρ → τ → Prop) (t : Table κ ρ) (u : Table κ τ) : Prop :=
  ∀ k, Option.Rel Q (t.find? k) (u.find? k)

variable {Q Q' : ρ → τ → Prop} {u : Table κ τ} {k : κ} {r : ρ} {x : τ}

theorem paired_empty : (empty : Table κ ρ).Paired Q (empty : Table κ τ) := fun _ => .none

theorem Paired.find? (h : t.Paired Q u) (hr : t.find? k = some r) :
    ∃ x, u.find? k = some x ∧ Q r x := by
  have hk := h k
  rw [hr] at hk
  cases hu : u.find? k with
  | none =>
    rw [hu] at hk
    cases hk
  | some x =>
    rw [hu] at hk
    cases hk with
    | some hrel => exact ⟨x, rfl, hrel⟩

theorem Paired.find?_eq_none (h : t.Paired Q u) (hr : t.find? k = none) : u.find? k = none := by
  have hk := h k
  rw [hr] at hk
  cases hu : u.find? k with
  | none => rfl
  | some x =>
    rw [hu] at hk
    cases hk

theorem Paired.contains_eq (h : t.Paired Q u) (k : κ) : u.contains k = t.contains k := by
  unfold contains
  have hk := h k
  generalize t.find? k = o at hk
  generalize u.find? k = o' at hk
  cases hk <;> rfl

theorem Paired.of_row (h : t.Paired Q u) (hx : x ∈ u.rows) : ∃ r, Q r x := by
  obtain ⟨k, hk⟩ := mem_rows.1 hx
  have hrel := h k
  rw [hk] at hrel
  cases hr : t.find? k with
  | none =>
    rw [hr] at hrel
    cases hrel
  | some r =>
    rw [hr] at hrel
    cases hrel with
    | some hrel => exact ⟨r, hrel⟩

theorem Paired.insert (h : t.Paired Q u) (k : κ) (hrel : Q r x) :
    (t.insert k r).Paired Q (u.insert k x) := by
  intro k'
  rw [find?_insert, find?_insert]
  split
  · exact .some hrel
  · exact h k'

theorem Paired.erase (h : t.Paired Q u) (k : κ) : (t.erase k).Paired Q (u.erase k) := by
  intro k'
  rw [find?_erase, find?_erase]
  split
  · exact .none
  · exact h k'

theorem Paired.modify (h : t.Paired Q u) (k : κ) {f : ρ → ρ} (hf : ∀ r x, Q r x → Q (f r) x) :
    (t.modify k f).Paired Q u := by
  intro k'
  have hk := h k'
  rw [find?_modify]
  split
  · generalize t.find? k' = o at hk ⊢
    generalize u.find? k' = o' at hk ⊢
    cases hk with
    | none => exact .none
    | some hrel => exact .some (hf _ _ hrel)
  · exact hk

theorem Paired.mono (h : t.Paired Q u) (hQ : ∀ r x, Q r x → Q' r x) : t.Paired Q' u := by
  intro k
  have hk := h k
  generalize t.find? k = o at hk ⊢
  generalize u.find? k = o' at hk ⊢
  cases hk with
  | none => exact .none
  | some hrel => exact .some (hQ _ _ hrel)

end Paired

end SyncCascade.Table
