import Mathlib.Data.List.Basic
import Mathlib.Data.List.TakeDrop
import Mathlib.Data.List.TakeWhile
import SyncCascade.Json.Decoder

/-!
# Reading written numbers

A numeral is read as its number, and what delimits it in a document does not change how it is read.
-/

namespace SyncCascade

namespace Numeral

theorem isDigit_iff {c : Char} : isDigit c = true ↔ c.isDigit = true := by
  rw [Char.isDigit_iff_toNat]
  unfold isDigit digitValue?
  change (if 48 ≤ c.toNat ∧ c.toNat ≤ 57 then some (c.toNat - 48) else none).isSome = true ↔
    48 ≤ c.toNat ∧ c.toNat ≤ 57
  split <;> simp_all

theorem isDigit_of_mem_digits {n : Nat} {c : Char} (h : c ∈ digits n) : isDigit c = true :=
  isDigit_iff.2 (Nat.isDigit_of_mem_toDigits (by decide) (by decide) h)

theorem digits_ne_nil (n : Nat) : digits n ≠ [] := Nat.toDigits_ne_nil

theorem valueFrom_eq {cs : List Char} (h : ∀ c ∈ cs, isDigit c = true) (acc : Nat) :
    valueFrom acc cs = some (Nat.ofDigitChars 10 cs acc) := by
  induction cs generalizing acc with
  | nil => rfl
  | cons c rest ih =>
    have hc := h c List.mem_cons_self
    unfold isDigit digitValue? at hc
    unfold valueFrom digitValue?
    split at hc
    next hrange =>
      rw [if_pos hrange]
      exact ih (fun c' hc' => h c' (List.mem_cons_of_mem _ hc')) _
    next => cases hc

theorem natural?_digits (n : Nat) : natural? (digits n) = some n := by
  have hvalue : valueFrom 0 (digits n) = some n := by
    rw [valueFrom_eq (fun c hc => isDigit_of_mem_digits hc) 0]
    exact congrArg some Nat.ofDigitChars_ten_toDigits
  unfold natural?
  split
  next hnil => exact absurd hnil (digits_ne_nil n)
  next => exact hvalue

theorem unsigned?_digits {n bound : Nat} (h : n < bound) : unsigned? bound (digits n) = some n := by
  unfold unsigned?
  split
  next rest heq =>
    have hplus : isDigit '+' = true := isDigit_of_mem_digits (heq ▸ List.mem_cons_self)
    cases hplus
  next => simp [natural?_digits, h]

theorem signed?_integerText {n : Int} {bound : Nat} (hlow : -(bound : Int) ≤ n)
    (hhigh : n < bound) : signed? bound (integerText n).toList = some n := by
  cases n with
  | ofNat m =>
    have hread : unsigned? bound (digits m) = some m := unsigned?_digits (Int.ofNat_lt.1 hhigh)
    simp only [integerText, text, String.toList_ofList]
    unfold signed?
    split
    next rest heq =>
      have hminus : isDigit '-' = true := isDigit_of_mem_digits (heq ▸ List.mem_cons_self)
      cases hminus
    next => simp [hread]
  | negSucc m =>
    have hle : m + 1 ≤ bound := by omega
    simp [integerText, signed?, natural?_digits, hle, Int.negSucc_eq, Option.filter]

theorem head?_digits_ne_zero {n : Nat} (h : 0 < n) : (digits n).head? ≠ some '0' := by
  induction n using Nat.strongRecOn with
  | _ n ih =>
    unfold digits at ih ⊢
    rw [Nat.toDigits_eq_if (by decide)]
    split
    next hlt =>
      have hall : ∀ d < 10, 0 < d → [Nat.digitChar d].head? ≠ some '0' := by decide
      exact hall n hlt h
    next hle =>
      rw [List.head?_append_of_ne_nil _ Nat.toDigits_ne_nil]
      exact ih (n / 10) (by omega) (by omega)

end Numeral

namespace Json

/-- What may follow a value in a written document: nothing, or what ends an item. -/
def Delimited (rest : List Char) : Prop :=
  ∀ c, rest.head? = some c → c = ',' ∨ c = ']' ∨ c = '}'

theorem delimited_nil : Delimited [] := nofun

theorem delimited_cons {c : Char} (h : c = ',' ∨ c = ']' ∨ c = '}') (rest : List Char) :
    Delimited (c :: rest) := by
  rintro _ ⟨⟩
  exact h

variable {rest after cs : List Char}

theorem takeDigits_append {ds : List Char} (hrest : Delimited rest)
    (h : takeDigits cs = (ds, after)) : takeDigits (cs ++ rest) = (ds, after ++ rest) := by
  unfold takeDigits at h ⊢
  rw [List.span_eq_takeWhile_dropWhile] at h ⊢
  obtain ⟨rfl, rfl⟩ := Prod.mk.inj h
  induction cs with
  | nil =>
    cases rest with
    | nil => rfl
    | cons c rest =>
      have hc : Numeral.isDigit c = false := by
        rcases hrest c rfl with rfl | rfl | rfl <;> rfl
      simp [hc]
  | cons c cs ih =>
    by_cases hc : Numeral.isDigit c = true
    · have htail := Prod.mk.inj (ih rfl)
      simp only [List.cons_append, List.takeWhile_cons_of_pos hc, List.dropWhile_cons_of_pos hc,
        htail.1, htail.2]
    · simp only [List.cons_append, List.takeWhile_cons_of_neg hc, List.dropWhile_cons_of_neg hc]

theorem whole?_append {w : List Char} (hrest : Delimited rest) (h : whole? cs = some (w, after)) :
    whole? (cs ++ rest) = some (w, after ++ rest) := by
  unfold whole? at h ⊢
  rcases hd : takeDigits cs with ⟨ds, tail⟩
  rw [takeDigits_append hrest hd]
  rw [hd] at h
  dsimp only at h ⊢
  split at h <;> cases h <;> rfl

theorem fraction?_append {f : List Char} (hrest : Delimited rest)
    (h : fraction? cs = some (f, after)) : fraction? (cs ++ rest) = some (f, after ++ rest) := by
  unfold fraction? at h
  split at h
  next digits =>
    rcases hd : takeDigits digits with ⟨ds, tail⟩
    rw [hd] at h
    simp only [List.cons_append, fraction?, takeDigits_append hrest hd]
    dsimp only at h
    split at h
    · cases h
    next hne =>
      cases h
      rw [if_neg hne]
  next hno =>
    cases h
    unfold fraction?
    split
    next digits heq =>
      cases after with
      | nil => exact absurd (hrest '.' (congrArg List.head? heq)) (by decide)
      | cons c tail => exact absurd (congrArg (· :: tail) (List.cons.inj heq).1) (hno tail)
    next => rfl

theorem exponentDigits?_append {sign e : List Char} (hrest : Delimited rest)
    (h : exponentDigits? sign cs = some (e, after)) :
    exponentDigits? sign (cs ++ rest) = some (e, after ++ rest) := by
  unfold exponentDigits? at h ⊢
  rcases hd : takeDigits cs with ⟨ds, tail⟩
  rw [takeDigits_append hrest hd]
  rw [hd] at h
  dsimp only at h ⊢
  split at h
  · cases h
  next hne =>
    cases h
    rw [if_neg hne]

theorem exponent?_append {e : List Char} (hrest : Delimited rest)
    (h : exponent? cs = some (e, after)) : exponent? (cs ++ rest) = some (e, after ++ rest) := by
  cases cs with
  | nil =>
    cases h
    cases rest with
    | nil => rfl
    | cons c rest =>
      have hc : ¬ (c = 'e' ∨ c = 'E') := by
        rcases hrest c rfl with rfl | rfl | rfl <;> decide
      simp only [List.nil_append, exponent?]
      rw [if_neg hc]
  | cons c tail =>
    simp only [List.cons_append, exponent?] at h ⊢
    split at h
    next hc =>
      rw [if_pos hc]
      split at h
      next => exact exponentDigits?_append hrest h
      next => exact exponentDigits?_append hrest h
      next hplus hminus =>
        cases tail with
        | nil => cases h
        | cons d tail =>
          have happ := exponentDigits?_append hrest h
          simp only [List.cons_append] at happ ⊢
          split
          next heq => exact absurd (congrArg (· :: tail) (List.cons.inj heq).1) (hplus tail)
          next heq => exact absurd (congrArg (· :: tail) (List.cons.inj heq).1) (hminus tail)
          next => exact happ
    next hc =>
      cases h
      rw [if_neg hc]
      rfl

/-- What is read of a number once its sign is known. -/
def unsignedLexeme? (negative : Bool) (body : List Char) : Option (Lexeme × List Char) := do
  let (whole, rest) ← whole? body
  let (fraction, rest) ← fraction? rest
  let (exponent, rest) ← exponent? rest
  some (⟨negative, whole, fraction, exponent⟩, rest)

theorem lexeme?_minus (body : List Char) : lexeme? ('-' :: body) = unsignedLexeme? true body := rfl

theorem lexeme?_of_head? (h : cs.head? ≠ some '-') : lexeme? cs = unsignedLexeme? false cs := by
  unfold lexeme?
  split
  next heq =>
    split at heq
    · exact absurd rfl h
    · cases heq
      rfl

theorem unsignedLexeme?_append {negative : Bool} {n : Lexeme} (hrest : Delimited rest)
    (h : unsignedLexeme? negative cs = some (n, after)) :
    unsignedLexeme? negative (cs ++ rest) = some (n, after ++ rest) := by
  unfold unsignedLexeme? at h ⊢
  simp only [Option.bind_eq_bind, Option.bind_eq_some_iff, Prod.exists] at h
  obtain ⟨whole, cs₁, hwhole, fraction, cs₂, hfraction, exponent, cs₃, hexponent, h⟩ := h
  cases h
  simp [whole?_append hrest hwhole, fraction?_append hrest hfraction,
    exponent?_append hrest hexponent]

/-- What delimits a number does not change how it is read. -/
theorem lexeme?_append {n : Lexeme} (hrest : Delimited rest) (h : lexeme? cs = some (n, after)) :
    lexeme? (cs ++ rest) = some (n, after ++ rest) := by
  cases cs with
  | nil => cases h
  | cons c tail =>
    by_cases hc : c = '-'
    · subst hc
      exact unsignedLexeme?_append hrest h
    · have hhead : ∀ l, (c :: l).head? ≠ some '-' := fun l heq => hc (Option.some.inj heq)
      rw [lexeme?_of_head? (hhead tail)] at h
      rw [List.cons_append, lexeme?_of_head? (hhead _)]
      exact unsignedLexeme?_append hrest h

def Lexeme.ofInt (n : Int) : Lexeme := ⟨decide (n < 0), Numeral.digits n.natAbs, [], []⟩

theorem takeDigits_digits (n : Nat) : takeDigits (Numeral.digits n) = (Numeral.digits n, []) := by
  unfold takeDigits
  have hall : ∀ c ∈ Numeral.digits n, Numeral.isDigit c = true :=
    fun c hc => Numeral.isDigit_of_mem_digits hc
  rw [List.span_eq_takeWhile_dropWhile, List.takeWhile_eq_self_iff.2 hall,
    List.dropWhile_eq_nil_iff.2 hall]

theorem whole?_digits (n : Nat) : whole? (Numeral.digits n) = some (Numeral.digits n, []) := by
  unfold whole?
  rw [takeDigits_digits]
  cases n with
  | zero => rfl
  | succ n =>
    have hhead := Numeral.head?_digits_ne_zero n.succ_pos
    dsimp only
    split
    next heq => exact absurd heq (Numeral.digits_ne_nil _)
    next => rfl
    next heq => exact absurd (congrArg List.head? heq) hhead
    next => rfl

theorem unsignedLexeme?_digits (negative : Bool) (n : Nat) :
    unsignedLexeme? negative (Numeral.digits n) =
      some (⟨negative, Numeral.digits n, [], []⟩, []) := by
  unfold unsignedLexeme?
  rw [whole?_digits]
  rfl

theorem lexeme?_integerText (n : Int) :
    lexeme? (Numeral.integerText n).toList = some (Lexeme.ofInt n, []) := by
  cases n with
  | ofNat m =>
    have hhead : (Numeral.digits m).head? ≠ some '-' := by
      intro heq
      have hdigit := Numeral.isDigit_of_mem_digits (List.mem_of_head? heq)
      revert hdigit
      decide
    have hsign : decide (Int.ofNat m < 0) = false := by simp
    simp only [Numeral.integerText, Numeral.text, String.toList_ofList, Lexeme.ofInt, hsign,
      lexeme?_of_head? hhead]
    exact unsignedLexeme?_digits false m
  | negSucc m =>
    have hsign : decide (Int.negSucc m < 0) = true := by simp
    simp only [Numeral.integerText, String.toList_ofList, lexeme?_minus, Lexeme.ofInt, hsign]
    exact unsignedLexeme?_digits true (m + 1)

theorem Lexeme.isIntegral_ofInt (n : Int) : (Lexeme.ofInt n).isIntegral = true := by
  have hzero : (decide (n < 0) && Numeral.digits n.natAbs == ['0']) = false := by
    by_cases hneg : n < 0
    · have hhead := Numeral.head?_digits_ne_zero (Int.natAbs_pos.2 (Int.ne_of_lt hneg))
      have hdigits : Numeral.digits n.natAbs ≠ ['0'] := fun heq => hhead (congrArg List.head? heq)
      rw [beq_eq_false_iff_ne.2 hdigits, Bool.and_false]
    · rw [decide_eq_false hneg, Bool.false_and]
  unfold Lexeme.isIntegral
  change (true && true && !(decide (n < 0) && Numeral.digits n.natAbs == ['0'])) = true
  rw [hzero]
  rfl

theorem Lexeme.toInt?_ofInt {n : Int} (hlow : -(Word.limit 63 : Int) ≤ n)
    (hhigh : n < Word.limit 64) : (Lexeme.ofInt n).toInt? = some n := by
  have hdigits : Numeral.natural? (Lexeme.ofInt n).whole = some n.natAbs :=
    Numeral.natural?_digits n.natAbs
  unfold Lexeme.toInt?
  rw [if_pos (Lexeme.isIntegral_ofInt n), hdigits, Option.bind_some]
  by_cases hneg : n < 0
  · have hsign : (Lexeme.ofInt n).negative = true := decide_eq_true hneg
    rw [if_pos hsign, if_pos (by omega)]
    exact congrArg some (by omega)
  · have hsign : ¬ (Lexeme.ofInt n).negative = true := fun h => hneg (of_decide_eq_true h)
    rw [if_neg hsign, if_pos (by omega)]
    exact congrArg some (by omega)

end Json

end SyncCascade
