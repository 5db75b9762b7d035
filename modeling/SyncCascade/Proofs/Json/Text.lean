import SyncCascade.Json.Writer
import SyncCascade.Proofs.Identifier
import SyncCascade.Proofs.Json.Number

/-!
# Reading written JSON

The text of a value is read as the tree of that value, whatever its strings hold, and what follows the
text is left. So what a typed reader makes of a written document can be told from the tree, without
its characters.
-/

namespace SyncCascade.Json

variable {rest after cs : List Char}

theorem valueFrom?_control {n : Nat} (h : n < 32) :
    Hex.valueFrom? 0 ['0', '0', Hex.digit (n / 16), Hex.digit n] = some n := by
  have hzero : Hex.value? '0' = some 0 := by decide
  have hn : 16 * (n / 16 % 16) + n % 16 = n := by omega
  simp [Hex.valueFrom?, hzero, Hex.value?_digit, hn]

theorem pieces?_plain {c : Char} (hquote : c ≠ '"') (hslash : c ≠ '\\') (hcontrol : ¬ c.toNat < 32)
    (rest : List Char) :
    pieces? (c :: rest) = (pieces? rest).map fun p => (.char c :: p.1, p.2) := by
  rw [pieces?.eq_def (c :: rest)]
  split
  next heq => cases heq
  next heq => exact absurd (List.cons.inj heq).1 hquote
  next heq => exact absurd (List.cons.inj heq).1 hslash
  next heq => exact absurd (List.cons.inj heq).1 hslash
  next heq =>
    obtain ⟨rfl, rfl⟩ := List.cons.inj heq
    rw [if_neg (not_or.2 ⟨hslash, hcontrol⟩)]

theorem pieces?_unicode {a b c d : Char} {n : Nat} (h : Hex.valueFrom? 0 [a, b, c, d] = some n)
    (rest : List Char) : pieces? ('\\' :: 'u' :: a :: b :: c :: d :: rest) =
      (pieces? rest).map fun p => (.ofUnit n :: p.1, p.2) := by
  rw [pieces?.eq_3, h]

theorem pieces?_escape (c : Char) (rest : List Char) :
    pieces? (escape c ++ rest) = (pieces? rest).map fun p => (.char c :: p.1, p.2) := by
  have hofNat : Char.ofNat c.toNat = c := Char.ofNat_toNat c
  unfold escape
  split
  next h => subst h; rfl
  split
  next h => subst h; rfl
  split
  next h => subst h; rfl
  split
  next h => subst h; rfl
  split
  next h => subst h; rfl
  split
  next h =>
    rw [h] at hofNat
    rw [← hofNat]
    rfl
  split
  next h =>
    rw [h] at hofNat
    rw [← hofNat]
    rfl
  split
  next h =>
    have hunit : Piece.ofUnit c.toNat = .char c := by
      unfold Piece.ofUnit
      rw [if_neg (by omega), hofNat]
    have hread := pieces?_unicode (valueFrom?_control h) rest
    rwa [hunit] at hread
  next hquote hslash _ _ _ _ _ hcontrol => exact pieces?_plain hquote hslash hcontrol rest

theorem pieces?_escaped (s rest : List Char) :
    pieces? (s.flatMap escape ++ '"' :: rest) = some (s.map .char, rest) := by
  induction s with
  | nil => rfl
  | cons c s ih => rw [List.flatMap_cons, List.append_assoc, pieces?_escape, ih]; rfl

theorem assemble?_chars (s : List Char) : assemble? (s.map .char) = some s := by
  induction s with
  | nil => rfl
  | cons c s ih => rw [List.map_cons, assemble?, ih, Option.map_some]

theorem string?_escaped (s : String) (rest : List Char) :
    string? (s.toList.flatMap escape ++ '"' :: rest) = some (some s, rest) := by
  unfold string?
  rw [pieces?_escaped, Option.map_some, assemble?_chars, Option.map_some, String.ofList_toList]

mutual

def Node.ofJson : Json → Node
  | .null => .null
  | .bool b => .bool b
  | .int n => .number (Lexeme.ofInt n)
  | .real t =>
    match lexeme? t.toList with
    | some (n, []) => .number n
    | _ => .cut
  | .string s => .string (some s)
  | .array items => .array (Node.ofItems items)
  | .object members => .object (Node.ofMembers members)

def Node.ofItems : List Json → List Node
  | [] => []
  | j :: rest => Node.ofJson j :: Node.ofItems rest

def Node.ofMembers : List (String × Json) → List (Option String × Node)
  | [] => []
  | (name, j) :: rest => (some name, Node.ofJson j) :: Node.ofMembers rest

end

theorem skipBlanks_cons {c : Char} (h : isBlank c = false) (tail : List Char) :
    skipBlanks (c :: tail) = c :: tail := by
  unfold skipBlanks
  rw [h]
  rfl

theorem head_of_lexeme? {n : Lexeme} (h : lexeme? cs = some (n, after)) :
    ∃ c tail, cs = c :: tail ∧ (c = '-' ∨ Numeral.isDigit c = true) := by
  cases cs with
  | nil => cases h
  | cons c tail =>
    refine ⟨c, tail, rfl, ?_⟩
    by_contra hno
    obtain ⟨hminus, hdigit⟩ := not_or.1 hno
    have hhead : (c :: tail).head? ≠ some '-' := fun heq => hminus (Option.some.inj heq)
    have hnone : whole? (c :: tail) = none := by
      unfold whole? takeDigits
      rw [List.span_eq_takeWhile_dropWhile, List.takeWhile_cons_of_neg hdigit]
    rw [lexeme?_of_head? hhead, unsignedLexeme?, hnone] at h
    cases h

theorem ne_of_numeric {c d : Char} (hc : c = '-' ∨ Numeral.isDigit c = true) (hminus : d ≠ '-')
    (hdigit : Numeral.isDigit d = false) : c ≠ d := by
  rintro rfl
  rcases hc with hc | hc
  · exact hminus hc
  · rw [hdigit] at hc
    cases hc

theorem isBlank_of_numeric {c : Char} (hc : c = '-' ∨ Numeral.isDigit c = true) :
    isBlank c = false := by
  unfold isBlank
  simp only [Bool.or_eq_false_iff, decide_eq_false_iff_not]
  exact ⟨⟨⟨ne_of_numeric hc (by decide) (by decide), ne_of_numeric hc (by decide) (by decide)⟩,
    ne_of_numeric hc (by decide) (by decide)⟩, ne_of_numeric hc (by decide) (by decide)⟩

theorem value_of_lexeme? {n : Lexeme} (h : lexeme? cs = some (n, after)) (fuel : Nat) :
    value (fuel + 1) cs = (.number n, after) := by
  obtain ⟨c, tail, rfl, hc⟩ := head_of_lexeme? h
  unfold value
  rw [skipBlanks_cons (isBlank_of_numeric hc)]
  split
  case h_1 heq => cases heq
  case h_8 heq => rw [← heq, h]
  all_goals
    next heq =>
      exact absurd (List.cons.inj heq).1 (ne_of_numeric hc (by decide) (by decide))

theorem value_string (s : String) (fuel : Nat) (rest : List Char) :
    value (fuel + 1) (stringChars s.toList ++ rest) = (.string (some s), rest) := by
  unfold value stringChars
  simp [skipBlanks_cons, isBlank, string?_escaped]

theorem value_array {c : Char} (hblank : isBlank c = false) (hclose : c ≠ ']') (fuel : Nat)
    (tail : List Char) : value (fuel + 1) ('[' :: c :: tail) =
      (.array (items fuel (c :: tail)).1, (items fuel (c :: tail)).2) := by
  unfold value
  simp [skipBlanks_cons (c := '[') (by decide), skipBlanks_cons hblank, hclose]

theorem value_object {c : Char} (hblank : isBlank c = false) (hclose : c ≠ '}') (fuel : Nat)
    (tail : List Char) : value (fuel + 1) ('{' :: c :: tail) =
      (.object (members fuel (c :: tail)).1, (members fuel (c :: tail)).2) := by
  unfold value
  simp [skipBlanks_cons (c := '{') (by decide), skipBlanks_cons hblank, hclose]

section Containers

variable {fuel : Nat} {node : Node}

theorem items_next (h : value fuel cs = (node, ',' :: after)) :
    items (fuel + 1) cs = (node :: (items fuel after).1, (items fuel after).2) := by
  rw [items, h]
  rfl

theorem items_last (h : value fuel cs = (node, ']' :: after)) :
    items (fuel + 1) cs = ([node], after) := by
  rw [items, h]
  rfl

theorem members_next {name : String} (h : value fuel cs = (node, ',' :: after)) :
    members (fuel + 1) (stringChars name.toList ++ ':' :: cs) =
      ((some name, node) :: (members fuel after).1, (members fuel after).2) := by
  rw [members, stringChars]
  simp [skipBlanks_cons, isBlank, string?_escaped, h]

theorem members_last {name : String} (h : value fuel cs = (node, '}' :: after)) :
    members (fuel + 1) (stringChars name.toList ++ ':' :: cs) = ([(some name, node)], after) := by
  rw [members, stringChars]
  simp [skipBlanks_cons, isBlank, string?_escaped, h]

end Containers

/-- No value begins with a blank or like the end of an array. -/
theorem head_of_isWhole {j : Json} (h : (Node.ofJson j).isWhole = true) :
    ∃ c tail, j.chars = c :: tail ∧ isBlank c = false ∧ c ≠ ']' := by
  have hnumber : ∀ {cs n after}, lexeme? cs = some (n, after) →
      ∃ c tail, cs = c :: tail ∧ isBlank c = false ∧ c ≠ ']' := by
    intro cs n after hn
    obtain ⟨c, tail, hcs, hc⟩ := head_of_lexeme? hn
    exact ⟨c, tail, hcs, isBlank_of_numeric hc, ne_of_numeric hc (by decide) (by decide)⟩
  cases j with
  | null => exact ⟨_, _, rfl, by decide, by decide⟩
  | bool b => cases b <;> exact ⟨_, _, rfl, by decide, by decide⟩
  | int n => exact hnumber (lexeme?_integerText n)
  | real t =>
    unfold Node.ofJson at h
    split at h
    next hn => exact hnumber hn
    next => cases h
  | string s => exact ⟨_, _, rfl, by decide, by decide⟩
  | array items => exact ⟨_, _, rfl, by decide, by decide⟩
  | object members => exact ⟨_, _, rfl, by decide, by decide⟩

theorem separated_cons (t u : List Char) (ts : List (List Char)) :
    separated (t :: u :: ts) = t ++ ',' :: separated (u :: ts) := rfl

theorem head_of_membersChars {members : List (String × Json)} (h : members ≠ []) :
    ∃ tail, separated (membersChars members) = '"' :: tail := by
  match members with
  | [] => exact absurd rfl h
  | [(name, j)] => exact ⟨_, rfl⟩
  | (name, j) :: _ :: _ => exact ⟨_, rfl⟩

theorem head_of_itemsChars {js : List Json} (h : js ≠ [])
    (hwhole : Node.allWhole (Node.ofItems js) = true) :
    ∃ c tail, separated (itemsChars js) = c :: tail ∧ isBlank c = false ∧ c ≠ ']' := by
  have hfirst : ∀ {j : Json} {rest : List Char}, (Node.ofJson j).isWhole = true →
      ∃ c tail, j.chars ++ rest = c :: tail ∧ isBlank c = false ∧ c ≠ ']' := by
    intro j rest hj
    obtain ⟨c, tail, hcs, hc⟩ := head_of_isWhole hj
    exact ⟨c, tail ++ rest, by rw [hcs, List.cons_append], hc⟩
  match js with
  | [] => exact absurd rfl h
  | [j] =>
    have hj := (Bool.and_eq_true_iff.1 hwhole).1
    exact head_of_isWhole hj
  | j :: _ :: _ => exact hfirst (Bool.and_eq_true_iff.1 hwhole).1

mutual

/-- The text of a value is read as the tree of that value. -/
theorem value_chars : ∀ (j : Json) (fuel : Nat) (rest : List Char),
    (Node.ofJson j).isWhole = true → Delimited rest → 2 * j.chars.length + 1 ≤ fuel →
      value fuel (j.chars ++ rest) = (Node.ofJson j, rest)
  | .null, fuel + 1, rest, _, _, _ => by
    simp [chars, value, skipBlanks, isBlank, keyword, Node.ofJson]
  | .bool true, fuel + 1, rest, _, _, _ => by
    simp [chars, value, skipBlanks, isBlank, keyword, Node.ofJson]
  | .bool false, fuel + 1, rest, _, _, _ => by
    simp [chars, value, skipBlanks, isBlank, keyword, Node.ofJson]
  | .int n, fuel + 1, rest, _, hrest, _ =>
    value_of_lexeme? (lexeme?_append hrest (lexeme?_integerText n)) fuel
  | .real t, fuel + 1, rest, hwhole, hrest, _ => by
    unfold Node.ofJson at hwhole ⊢
    split at hwhole
    next hn => exact value_of_lexeme? (lexeme?_append hrest hn) fuel
    next => cases hwhole
  | .string s, fuel + 1, rest, _, _, _ => value_string s fuel rest
  | .array [], fuel + 1, rest, _, _, _ => rfl
  | .array (j :: js), fuel + 1, rest, hwhole, hrest, hfuel => by
    obtain ⟨c, tail, hhead, hblank, hclose⟩ := head_of_itemsChars (List.cons_ne_nil j js) hwhole
    have hitems := items_chars (j :: js) fuel rest (List.cons_ne_nil j js) hwhole
      (by simp only [chars, List.length_append, List.length_cons] at hfuel; omega)
    rw [chars, List.append_assoc, List.singleton_append, List.cons_append, hhead, List.cons_append,
      value_array hblank hclose, ← List.cons_append, ← hhead, hitems]
    rfl
  | .object [], fuel + 1, rest, _, _, _ => rfl
  | .object (m :: ms), fuel + 1, rest, hwhole, hrest, hfuel => by
    obtain ⟨tail, hhead⟩ := head_of_membersChars (List.cons_ne_nil m ms)
    have hmembers := members_chars (m :: ms) fuel rest (List.cons_ne_nil m ms) hwhole
      (by simp only [chars, List.length_append, List.length_cons] at hfuel; omega)
    rw [chars, List.append_assoc, List.singleton_append, List.cons_append, hhead, List.cons_append,
      value_object (by decide) (by decide), ← List.cons_append, ← hhead, hmembers]
    rfl

theorem items_chars : ∀ (js : List Json) (fuel : Nat) (rest : List Char), js ≠ [] →
    Node.allWhole (Node.ofItems js) = true → 2 * (separated (itemsChars js)).length + 2 ≤ fuel →
      items fuel (separated (itemsChars js) ++ ']' :: rest) = (Node.ofItems js, rest)
  | [], _, _, h, _, _ => absurd rfl h
  | [j], fuel + 1, rest, _, hwhole, hfuel => by
    have hj := (Bool.and_eq_true_iff.1 hwhole).1
    have hend : Delimited (']' :: rest) := delimited_cons (.inr (.inl rfl)) rest
    exact items_last (value_chars j fuel _ hj hend (by simp only [itemsChars, separated] at hfuel; omega))
  | j :: k :: js, fuel + 1, rest, _, hwhole, hfuel => by
    obtain ⟨hj, hjs⟩ := Bool.and_eq_true_iff.1 hwhole
    have hcomma := delimited_cons (.inl rfl) (separated (itemsChars (k :: js)) ++ ']' :: rest)
    have hlength : 2 * (j.chars.length + (separated (itemsChars (k :: js))).length) + 3 ≤ fuel := by
      simp only [itemsChars, separated_cons, List.length_append, List.length_cons] at hfuel ⊢
      omega
    have hothers := items_chars (k :: js) fuel rest (List.cons_ne_nil k js) hjs (by omega)
    rw [itemsChars, itemsChars, separated_cons, List.append_assoc, List.cons_append,
      ← itemsChars, items_next (value_chars j fuel _ hj hcomma (by omega)), hothers]
    rfl

theorem members_chars : ∀ (ms : List (String × Json)) (fuel : Nat) (rest : List Char), ms ≠ [] →
    Node.membersWhole (Node.ofMembers ms) = true →
    2 * (separated (membersChars ms)).length + 2 ≤ fuel →
      members fuel (separated (membersChars ms) ++ '}' :: rest) = (Node.ofMembers ms, rest)
  | [], _, _, h, _, _ => absurd rfl h
  | [(name, j)], fuel + 1, rest, _, hwhole, hfuel => by
    have hj := (Bool.and_eq_true_iff.1 hwhole).1
    have hend : Delimited ('}' :: rest) := delimited_cons (.inr (.inr rfl)) rest
    have hlength : 2 * j.chars.length + 1 ≤ fuel := by
      simp only [membersChars, separated, memberChars, List.length_append, List.length_cons] at hfuel
      omega
    rw [membersChars, membersChars, separated, memberChars, List.append_assoc, List.cons_append,
      members_last (value_chars j fuel _ hj hend hlength)]
    rfl
  | (name, j) :: (name', k) :: ms, fuel + 1, rest, _, hwhole, hfuel => by
    obtain ⟨hj, hjs⟩ := Bool.and_eq_true_iff.1 hwhole
    have hcomma := delimited_cons (.inl rfl)
      (separated (membersChars ((name', k) :: ms)) ++ '}' :: rest)
    have hlength :
        2 * (j.chars.length + (separated (membersChars ((name', k) :: ms))).length) + 3 ≤ fuel := by
      simp only [membersChars, separated_cons, memberChars, List.length_append,
        List.length_cons] at hfuel ⊢
      omega
    have hothers := members_chars ((name', k) :: ms) fuel rest (List.cons_ne_nil _ ms) hjs
      (by omega)
    rw [membersChars, membersChars, separated_cons, ← membersChars, memberChars, List.append_assoc,
      List.append_assoc, List.cons_append, List.cons_append,
      members_next (value_chars j fuel _ hj hcomma (by omega)), hothers]
    rfl

end

theorem readFirst_chars {j : Json} (h : (Node.ofJson j).isWhole = true) :
    readFirst j.chars = (Node.ofJson j, []) := by
  have hread := value_chars j (2 * j.chars.length + 2) [] h delimited_nil (by omega)
  rwa [List.append_nil] at hread

/-- What a decoder makes of a written document it makes of the tree. -/
theorem decode_chars {α : Type} {j : Json} (d : Decoder α) (h : (Node.ofJson j).isWhole = true) :
    decode d j.chars = d depthLimit (Node.ofJson j) := by
  unfold decode
  rw [readFirst_chars h]
  dsimp only
  split
  next herr => rw [herr]
  next hok => rw [hok]; rfl

end SyncCascade.Json
