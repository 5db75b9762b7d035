import Mathlib.Data.List.Induction
import SyncCascade.Proofs.Identifier

/-!
# Spellings of an identifier

A universally unique identifier has four forms: its 32 digits, its written form, that form in braces, and
that form behind the urn. A text spells the identifier if it is one of these forms in lower case, and
these are the texts that are read as the identifier.
-/

namespace SyncCascade

namespace Text

def lower (cs : List Char) : List Char := cs.map Char.toLower

@[simp] theorem length_lower (cs : List Char) : (lower cs).length = cs.length := List.length_map _

theorem lower_append (cs ds : List Char) : lower (cs ++ ds) = lower cs ++ lower ds := List.map_append

theorem toNat_toLower (c : Char) :
    c.toLower.toNat = if 65 ≤ c.toNat ∧ c.toNat ≤ 90 then c.toNat + 32 else c.toNat := by
  have hupper : (c.val ≥ 'A'.val ∧ c.val ≤ 'Z'.val) ↔ (65 ≤ c.toNat ∧ c.toNat ≤ 90) := by
    rw [ge_iff_le, UInt32.le_iff_toNat_le, UInt32.le_iff_toNat_le]
    exact Iff.rfl
  unfold Char.toLower
  split
  next h =>
    rw [if_pos (hupper.1 h)]
    have hlimit : c.toNat ≤ 90 := (hupper.1 h).2
    change (c.val + 32).toNat = c.val.toNat + 32
    rw [UInt32.toNat_add]
    exact Nat.mod_eq_of_lt (Nat.lt_of_le_of_lt (Nat.add_le_add_right hlimit 32) (by decide))
  next h => rw [if_neg fun h' => h (hupper.2 h')]

theorem eq_of_toLower_eq {c d : Char} (hd : ¬ (97 ≤ d.toNat ∧ d.toNat ≤ 122)) (h : c.toLower = d) :
    c = d := by
  subst h
  rw [toNat_toLower] at hd
  rw [← Char.toNat_inj, toNat_toLower]
  grind

end Text

open Text

namespace Hex

theorem toNat_digit {d : Nat} (h : d < 16) : (digit d).toNat = if d < 10 then d + 48 else d + 87 := by
  revert d
  decide

theorem value?_eq_some_iff {c : Char} {d : Nat} : value? c = some d ↔ d < 16 ∧ c.toLower = digit d := by
  have hdigit : d < 16 ∧ c.toLower = digit d ↔ d < 16 ∧ c.toLower.toNat = (digit d).toNat :=
    and_congr_right fun _ => Char.toNat_inj.symm
  rw [hdigit, toNat_toLower]
  unfold value?
  constructor
  · intro h
    have hd : d < 16 := by grind
    rw [toNat_digit hd]
    grind
  · rintro ⟨hd, h⟩
    rw [toNat_digit hd] at h
    grind

theorem valueFrom?_concat (acc : Nat) (cs : List Char) (c : Char) :
    valueFrom? acc (cs ++ [c]) =
      (valueFrom? acc cs).bind fun n => (value? c).map fun d => 16 * n + d := by
  induction cs generalizing acc with
  | nil =>
    change valueFrom? acc [c] = (value? c).map fun d => 16 * acc + d
    unfold valueFrom?
    cases value? c <;> rfl
  | cons c' rest ih =>
    rw [List.cons_append, valueFrom?, valueFrom?]
    cases value? c' with
    | none => rfl
    | some d => exact ih (16 * acc + d)

theorem valueFrom?_eq_some_iff {cs : List Char} {n : Nat} :
    valueFrom? 0 cs = some n ↔ n < 16 ^ cs.length ∧ lower cs = digits cs.length n := by
  induction cs using List.reverseRecOn generalizing n with
  | nil =>
    have hzero : (0 = n) ↔ n < 16 ^ 0 := by omega
    exact (Option.some_inj.trans hzero).trans (and_iff_left rfl).symm
  | append_singleton cs c ih =>
    have hstep : valueFrom? 0 (cs ++ [c]) = some n ↔
        ∃ m d, valueFrom? 0 cs = some m ∧ value? c = some d ∧ 16 * m + d = n := by
      rw [valueFrom?_concat]
      simp only [Option.bind_eq_some_iff, Option.map_eq_some_iff]
      grind
    rw [hstep, List.length_append, List.length_singleton, digits, lower_append, Nat.pow_succ']
    constructor
    · rintro ⟨m, d, hm, hd, rfl⟩
      obtain ⟨hlt, hlower⟩ := ih.1 hm
      obtain ⟨hd, hc⟩ := value?_eq_some_iff.1 hd
      have hdiv : (16 * m + d) / 16 = m := by omega
      have hdigit : digit (16 * m + d) = digit d := by
        unfold digit
        rw [Nat.mul_add_mod]
      refine ⟨by omega, ?_⟩
      rw [hdiv, hdigit, hlower, ← hc]
      rfl
    · rintro ⟨hlt, hlower⟩
      obtain ⟨hinit, hlast⟩ := List.append_inj' hlower rfl
      have hdigit : digit n = digit (n % 16) := by
        unfold digit
        rw [Nat.mod_mod]
      refine ⟨n / 16, n % 16, ih.2 ⟨by omega, hinit⟩, value?_eq_some_iff.2 ⟨by omega, ?_⟩, by omega⟩
      exact (List.cons.inj hlast).1.trans hdigit

theorem mem_digits {width n : Nat} {c : Char} (h : c ∈ digits width n) :
    ∃ d < 16, c = digit d := by
  induction width generalizing n with
  | zero => cases h
  | succ width ih =>
    rcases List.mem_append.1 h with h | h
    · exact ih h
    · refine ⟨n % 16, Nat.mod_lt n (by decide), ?_⟩
      rw [List.mem_singleton.1 h]
      unfold digit
      rw [Nat.mod_mod]

end Hex

namespace Uuid

variable {cs ds : List Char} {u : Uuid}

theorem ofPlain?_eq_some_iff :
    ofPlain? cs = some u ↔ lower cs = Hex.digits 32 u.bits.toNat := by
  unfold ofPlain?
  constructor
  · intro h
    split at h
    next hlength =>
      obtain ⟨n, hn, rfl⟩ := Option.map_eq_some_iff.1 h
      obtain ⟨hlt, hlower⟩ := Hex.valueFrom?_eq_some_iff.1 hn
      rw [hlength] at hlt hlower
      have hlimit : n < 2 ^ 128 := hlt
      rwa [BitVec.toNat_ofNat, Nat.mod_eq_of_lt hlimit]
    next => cases h
  · intro h
    have hlength : cs.length = 32 := by
      rw [← length_lower, h, Hex.length_digits]
    have hvalue : Hex.valueFrom? 0 cs = some u.bits.toNat :=
      Hex.valueFrom?_eq_some_iff.2 ⟨hlength ▸ u.bits.isLt, hlength ▸ h⟩
    rw [if_pos hlength, hvalue, Option.map_some, BitVec.ofNat_toNat, BitVec.setWidth_eq]

/-- 36 characters with the hyphens where they belong. -/
def Hyphenated (cs : List Char) : Prop :=
  cs.length = 36 ∧ cs[8]? = some '-' ∧ cs[13]? = some '-' ∧ cs[18]? = some '-' ∧ cs[23]? = some '-'

def strip (cs : List Char) : List Char :=
  cs.take 8 ++ (cs.drop 9).take 4 ++ (cs.drop 14).take 4 ++ (cs.drop 19).take 4 ++ cs.drop 24

theorem hyphenate_append {a b c d e : List Char} (ha : a.length = 8) (hb : b.length = 4)
    (hc : c.length = 4) (hd : d.length = 4) :
    hyphenate (a ++ b ++ c ++ d ++ e) = a ++ '-' :: b ++ '-' :: c ++ '-' :: d ++ '-' :: e := by
  have hover : ∀ {xs : List Char} {n : Nat}, xs.length ≤ n → xs.drop n = [] := List.drop_eq_nil_of_le
  simp [hyphenate, List.drop_append, ha, hb, hc, hd, hover]

theorem Hyphenated.hyphenate_strip (h : Hyphenated cs) : hyphenate (strip cs) = cs := by
  obtain ⟨hlength, h8, h13, h18, h23⟩ := h
  have hgroup : ∀ i, cs[i + 4]? = some '-' →
      cs.drop i = (cs.drop i).take 4 ++ '-' :: cs.drop (i + 5) := fun i hi => by
    rw [← drop_of_getElem? hi, ← List.drop_drop, List.take_append_drop]
  have hcs : cs = cs.take 8 ++ '-' :: cs.drop 9 := by
    rw [← drop_of_getElem? h8, List.take_append_drop]
  have hfour : ∀ i, i + 4 ≤ 36 → ((cs.drop i).take 4).length = 4 := fun i hi => by
    rw [List.length_take, List.length_drop, hlength]
    omega
  have height : (cs.take 8).length = 8 := by
    rw [List.length_take, hlength]
    rfl
  rw [strip, hyphenate_append height (hfour 9 (by decide)) (hfour 14 (by decide))
    (hfour 19 (by decide))]
  conv_rhs => rw [hcs, hgroup 9 h13, hgroup 14 h18, hgroup 19 h23]
  simp only [List.append_assoc, List.cons_append]

theorem hyphenated_hyphenate (h : ds.length = 32) :
    Hyphenated (hyphenate ds) ∧ strip (hyphenate ds) = ds := by
  match ds, h with
  | [c0, c1, c2, c3, c4, c5, c6, c7,
      c8, c9, c10, c11, c12, c13, c14, c15,
      c16, c17, c18, c19, c20, c21, c22, c23,
      c24, c25, c26, c27, c28, c29, c30, c31], _ => exact ⟨⟨rfl, rfl, rfl, rfl, rfl⟩, rfl⟩

theorem lower_hyphenate (ds : List Char) : lower (hyphenate ds) = hyphenate (lower ds) := by
  simp only [hyphenate, lower, List.map_append, List.map_cons, List.map_take, List.map_drop]
  rfl

theorem lower_strip (cs : List Char) : lower (strip cs) = strip (lower cs) := by
  simp only [strip, lower, List.map_append, List.map_take, List.map_drop]

theorem hyphenated_lower : Hyphenated (lower cs) ↔ Hyphenated cs := by
  have hhyphen : ∀ i, (lower cs)[i]? = some '-' ↔ cs[i]? = some '-' := fun i => by
    rw [lower, List.getElem?_map, Option.map_eq_some_iff]
    constructor
    · rintro ⟨c, hc, hlower⟩
      rw [hc, eq_of_toLower_eq (by decide) hlower]
    · exact fun h => ⟨'-', h, rfl⟩
  simp only [Hyphenated, length_lower, hhyphen]

theorem ofHyphenated?_eq_some_iff : ofHyphenated? cs = some u ↔ lower cs = u.chars := by
  have hread : ofHyphenated? cs = some u ↔
      Hyphenated cs ∧ lower (strip cs) = Hex.digits 32 u.bits.toNat := by
    rw [← ofPlain?_eq_some_iff]
    unfold ofHyphenated?
    split
    next h => exact (and_iff_right h).symm
    next h => exact iff_of_false nofun fun h' => h h'.1
  obtain ⟨hhyphens, hstrip⟩ := hyphenated_hyphenate (Hex.length_digits 32 u.bits.toNat)
  rw [hread]
  constructor
  · rintro ⟨h, hdigits⟩
    rw [← h.hyphenate_strip, lower_hyphenate, hdigits, chars]
  · intro h
    rw [lower_strip, ← hyphenated_lower, h]
    exact ⟨hhyphens, hstrip⟩

def forms (u : Uuid) : List (List Char) :=
  [Hex.digits 32 u.bits.toNat, u.chars, '{' :: u.chars ++ ['}'], urn ++ u.chars]

/-- The text is one of the forms, in either case. -/
def SpelledBy (u : Uuid) (s : String) : Prop := lower s.toList ∈ u.forms

instance (u : Uuid) (s : String) : Decidable (u.SpelledBy s) :=
  inferInstanceAs (Decidable (_ ∈ _))

theorem length_chars (u : Uuid) : u.chars.length = 36 :=
  length_hyphenate (Hex.length_digits 32 u.bits.toNat)

theorem braced_iff {cs : List Char} :
    cs.length = 38 ∧ cs.head? = some '{' ∧ cs.getLast? = some '}' ↔
      ∃ mid, mid.length = 36 ∧ cs = '{' :: mid ++ ['}'] := by
  constructor
  · rintro ⟨hlength, hhead, hlast⟩
    obtain ⟨init, rfl⟩ := List.getLast?_eq_some_iff.1 hlast
    cases init with
    | nil => cases hlength
    | cons c mid =>
      cases hhead
      refine ⟨mid, ?_, rfl⟩
      simpa using hlength
  · rintro ⟨mid, hmid, rfl⟩
    refine ⟨?_, rfl, List.getLast?_concat⟩
    simp [hmid]

theorem mem_forms_iff : lower cs ∈ u.forms ↔ lower cs = Hex.digits 32 u.bits.toNat ∨
    lower cs = u.chars ∨ lower cs = '{' :: u.chars ++ ['}'] ∨ lower cs = urn ++ u.chars := by
  simp only [forms, List.mem_cons, List.not_mem_nil, or_false]

theorem lower_eq_braced_iff :
    lower cs = '{' :: u.chars ++ ['}'] ↔ ∃ mid, cs = '{' :: mid ++ ['}'] ∧ lower mid = u.chars := by
  constructor
  · intro h
    obtain ⟨opening, closing, rfl, hopening, hclosing⟩ := List.map_eq_append_iff.1 h
    obtain ⟨brace, mid, rfl, hbrace, hmid⟩ := List.map_eq_cons_iff.1 hopening
    obtain ⟨brace', rest, rfl, hbrace', hrest⟩ := List.map_eq_cons_iff.1 hclosing
    rw [List.map_eq_nil_iff.1 hrest, eq_of_toLower_eq (by decide) hbrace,
      eq_of_toLower_eq (by decide) hbrace']
    exact ⟨mid, rfl, hmid⟩
  · rintro ⟨mid, rfl, hmid⟩
    rw [lower_append, ← hmid]
    rfl

theorem lower_eq_urn_iff :
    lower cs = urn ++ u.chars ↔ lower (cs.take 9) = urn ∧ lower (cs.drop 9) = u.chars := by
  have hurn : urn.length = 9 := by decide +kernel
  have htake : lower (cs.take 9) = (lower cs).take 9 := List.map_take
  have hdrop : lower (cs.drop 9) = (lower cs).drop 9 := List.map_drop
  constructor
  · intro h
    rw [htake, hdrop, h]
    exact ⟨List.take_left' hurn, List.drop_left' hurn⟩
  · rintro ⟨hscheme, hchars⟩
    rw [← hscheme, ← hchars, ← lower_append, List.take_append_drop]

theorem mem_forms_of_ofChars? (h : ofChars? cs = some u) : lower cs ∈ u.forms := by
  rw [mem_forms_iff]
  unfold ofChars? at h
  split at h
  next => exact .inl (ofPlain?_eq_some_iff.1 h)
  next =>
    split at h
    next => exact .inr (.inl (ofHyphenated?_eq_some_iff.1 h))
    next =>
      split at h
      next hbraces =>
        obtain ⟨mid, hmid, rfl⟩ := braced_iff.1 hbraces
        have hdrop : (('{' :: mid ++ ['}']).drop 1).take 36 = mid := List.take_left' hmid
        rw [hdrop] at h
        exact .inr (.inr (.inl (lower_eq_braced_iff.2 ⟨mid, rfl, ofHyphenated?_eq_some_iff.1 h⟩)))
      next =>
        split at h
        next hurn =>
          exact .inr (.inr (.inr (lower_eq_urn_iff.2 ⟨hurn.2, ofHyphenated?_eq_some_iff.1 h⟩)))
        next => cases h

theorem ofChars?_of_mem_forms (h : lower cs ∈ u.forms) : ofChars? cs = some u := by
  -- The length of a text tells the form, if it is one.
  have hlength : ∀ {form : List Char}, lower cs = form → cs.length = form.length := fun h => by
    rw [← h, length_lower]
  unfold ofChars?
  rcases mem_forms_iff.1 h with h | h | h | h
  · have hcs : cs.length = 32 := (hlength h).trans (Hex.length_digits 32 u.bits.toNat)
    rw [if_pos hcs]
    exact ofPlain?_eq_some_iff.2 h
  · have hcs : cs.length = 36 := (hlength h).trans u.length_chars
    rw [if_neg (by omega), if_pos hcs]
    exact ofHyphenated?_eq_some_iff.2 h
  · obtain ⟨mid, rfl, hmid⟩ := lower_eq_braced_iff.1 h
    have hlength : mid.length = 36 := by
      rw [← length_lower, hmid, length_chars]
    have hbraces := braced_iff.2 ⟨mid, hlength, rfl⟩
    have hdrop : (('{' :: mid ++ ['}']).drop 1).take 36 = mid := List.take_left' hlength
    rw [if_neg (by omega), if_neg (by omega), if_pos hbraces, hdrop]
    exact ofHyphenated?_eq_some_iff.2 hmid
  · have hurn : urn.length = 9 := by decide +kernel
    have hcs : cs.length = 45 := by
      rw [hlength h, List.length_append, length_chars, hurn]
    obtain ⟨hscheme, hchars⟩ := lower_eq_urn_iff.1 h
    rw [if_neg (by omega), if_neg (by omega), if_neg (by omega), if_pos ⟨hcs, hscheme⟩]
    exact ofHyphenated?_eq_some_iff.2 hchars

/-- The texts that spell an identifier are those that are read as it. -/
theorem parse?_eq_some_iff {s : String} : parse? s = some u ↔ u.SpelledBy s :=
  ⟨mem_forms_of_ofChars?, ofChars?_of_mem_forms⟩

/-- 36 characters: hyphens where they belong, and otherwise digits in lower case. -/
def Canonical (s : String) : Prop :=
  Hyphenated s.toList ∧ ∀ c ∈ strip s.toList, ∃ d < 16, c = Hex.digit d

theorem canonical_text (u : Uuid) : Canonical u.text := by
  obtain ⟨hhyphens, hstrip⟩ := hyphenated_hyphenate (Hex.length_digits 32 u.bits.toNat)
  have hchars : u.text.toList = hyphenate (Hex.digits 32 u.bits.toNat) := String.toList_ofList
  unfold Canonical
  rw [hchars]
  exact ⟨hhyphens, fun c hc => Hex.mem_digits (hstrip ▸ hc)⟩

end Uuid

end SyncCascade
