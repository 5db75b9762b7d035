import SyncCascade.Postgres.Statement
import SyncCascade.Proofs.Json.Number
import Mathlib.Data.List.Nodup

/-!
# What an insertion inserts

An insertion lists columns and placeholders in its text, and carries the values of the placeholders. It
is read here as a database reads it: the two lists are cut from the text, and each column gets the value
of the placeholder at its position.
-/

namespace SyncCascade.Postgres

def isBracket (c : Char) : Bool := c == '(' || c == ')'

def items (cs : List Char) : List String :=
  ((cs.filter fun c => !c.isWhitespace).splitOn ',').map String.ofList

def place? (item : String) : Option Nat :=
  match item.toList with
  | '$' :: digits => Numeral.natural? digits
  | _ => none

/-- The columns and the placeholders of `INSERT INTO table (columns) VALUES (placeholders)`. -/
def insertion? (text : String) : Option (List String × List Nat) :=
  match text.toList.splitOnP isBracket with
  | [head, columns, between, places, []] =>
    if "INSERT INTO ".toList <+: head ∧ between = " VALUES ".toList then
      ((items places).mapM place?).map (items columns, ·)
    else none
  | _ => none

namespace Statement

/-- The value of a placeholder; they are counted from 1. -/
def bound? (s : Statement) : Nat → Option Value
  | 0 => none
  | n + 1 => s.params[n]?

/-- The row that an insertion makes: each column of the list has the value of the placeholder at its
position. -/
def inserted? (s : Statement) : Option Row :=
  match insertion? s.text with
  | some (columns, places) =>
    if columns.length = places.length then (places.mapM s.bound?).map columns.zip else none
  | none => none

end Statement

def isNameChar (c : Char) : Bool := !c.isWhitespace && c != ',' && !isBracket c

def IsName (s : String) : Prop := s.toList.all isNameChar = true

instance (s : String) : Decidable (IsName s) :=
  inferInstanceAs (Decidable (s.toList.all isNameChar = true))

def IsBlank (s : String) : Prop := s.toList.all Char.isWhitespace = true

instance (s : String) : Decidable (IsBlank s) :=
  inferInstanceAs (Decidable (s.toList.all Char.isWhitespace = true))

theorem isName_iff {s : String} :
    IsName s ↔ ∀ c ∈ s.toList, c.isWhitespace = false ∧ c ≠ ',' ∧ isBracket c = false := by
  simp [IsName, isNameChar, and_assoc]

theorem isBlank_empty : IsBlank "" := rfl

theorem isBracket_of_isWhitespace {c : Char} (h : c.isWhitespace = true) : isBracket c = false := by
  simp only [Char.isWhitespace, Bool.or_eq_true, decide_eq_true_eq] at h
  rcases h with ((rfl | rfl) | rfl) | rfl <;> rfl

theorem isNameChar_of_isDigit {c : Char} (h : Numeral.isDigit c = true) : isNameChar c = true := by
  have hne : ∀ d, Numeral.isDigit d = false → c ≠ d := by
    rintro d hd rfl
    cases h.symm.trans hd
  simp [isNameChar, isBracket, Char.isWhitespace, hne ' ' rfl, hne '\t' rfl, hne '\r' rfl, hne '\n' rfl,
    hne ',' rfl, hne '(' rfl, hne ')' rfl]

theorem toList_placeholder (n : Nat) : ("$" ++ Numeral.text n).toList = '$' :: Numeral.digits n := by
  simp [Numeral.text]

theorem isName_placeholder (n : Nat) : IsName ("$" ++ Numeral.text n) := by
  unfold IsName
  rw [toList_placeholder, List.all_cons, Bool.and_eq_true, List.all_eq_true]
  exact ⟨rfl, fun c hc => isNameChar_of_isDigit (Numeral.isDigit_of_mem_digits hc)⟩

theorem place?_placeholder (n : Nat) : place? ("$" ++ Numeral.text n) = some n := by
  rw [place?, toList_placeholder]
  exact Numeral.natural?_digits n

theorem mapM_eq_some_of_forall₂ {α β : Type} {f : α → Option β} {as : List α} {bs : List β}
    (h : List.Forall₂ (fun a b => f a = some b) as bs) : as.mapM f = some bs := by
  induction h with
  | nil => rfl
  | cons hab _ ih => rw [List.mapM_cons, hab, ih]; rfl

theorem filter_intercalate {α : Type} (p : α → Bool) (sep : List α) (ls : List (List α)) :
    (sep.intercalate ls).filter p = (sep.filter p).intercalate (ls.map (List.filter p)) := by
  induction ls with
  | nil => rfl
  | cons l ls ih =>
    cases ls with
    | nil => simp
    | cons l' ls =>
      rw [List.intercalate_cons_cons, List.filter_append, List.filter_append, ih]
      exact List.intercalate_cons_cons.symm

theorem forall_mem_intercalate {α : Type} {P : α → Prop} {sep : List α} {ls : List (List α)}
    (hsep : ∀ a ∈ sep, P a) (hls : ∀ l ∈ ls, ∀ a ∈ l, P a) : ∀ a ∈ sep.intercalate ls, P a := by
  induction ls with
  | nil => simp
  | cons l ls ih =>
    obtain ⟨hl, hls⟩ := List.forall_mem_cons.1 hls
    cases ls with
    | nil => simpa using hl
    | cons l' ls =>
      rw [List.intercalate_cons_cons]
      exact List.forall_mem_append.2 ⟨List.forall_mem_append.2 ⟨hl, hsep⟩, ih hls⟩

section Listing

variable {names : List String} {blank : String} (hblank : IsBlank blank)
  (hnames : ∀ s ∈ names, IsName s)
include hblank hnames

theorem items_listing (hne : names ≠ []) :
    items (blank.toList ++ (", ".intercalate names).toList ++ blank.toList) = names := by
  -- Without the blanks the names stand between single commas.
  have hnone : blank.toList.filter (fun c => !c.isWhitespace) = [] := by
    simpa [List.filter_eq_nil_iff, IsBlank] using hblank
  have hsame : (names.map String.toList).map (List.filter fun c => !c.isWhitespace) =
      names.map String.toList := by
    rw [List.map_map]
    refine List.map_congr_left fun s hs => List.filter_eq_self.2 fun c hc => ?_
    rw [(isName_iff.1 (hnames s hs) c hc).1]
    rfl
  have hlisting : (blank.toList ++ (", ".intercalate names).toList ++ blank.toList).filter
      (fun c => !c.isWhitespace) = [','].intercalate (names.map String.toList) := by
    rw [List.filter_append, List.filter_append, hnone, String.toList_intercalate, filter_intercalate,
      hsame, List.nil_append, List.append_nil]
    rfl
  have hcomma : ∀ l ∈ names.map String.toList, ',' ∉ l :=
    List.forall_mem_map.2 fun s hs hc => (isName_iff.1 (hnames s hs) _ hc).2.1 rfl
  rw [items, hlisting, List.splitOn_intercalate _ hcomma (by simpa using hne), List.map_map]
  simp [Function.comp_def]

theorem listing_noBracket : ∀ c ∈ blank.toList ++ (", ".intercalate names).toList ++ blank.toList,
    isBracket c = false := by
  have hspace : ∀ c ∈ blank.toList, isBracket c = false := fun c hc =>
    isBracket_of_isWhitespace (List.all_eq_true.1 hblank c hc)
  rw [String.toList_intercalate]
  refine List.forall_mem_append.2 ⟨List.forall_mem_append.2 ⟨hspace, ?_⟩, hspace⟩
  refine forall_mem_intercalate (by simp [isBracket]) (List.forall_mem_map.2 fun s hs c hc => ?_)
  exact (isName_iff.1 (hnames s hs) c hc).2.2

end Listing

theorem toList_insertInto (table blank : String) (columns : List String) :
    (Statement.insertInto table blank columns).toList =
      ("INSERT INTO ".toList ++ table.toList ++ [' ']) ++
        '(' :: ((blank.toList ++ (", ".intercalate columns).toList ++ blank.toList) ++
          ')' :: (" VALUES ".toList ++
            '(' :: ((Statement.placeholders columns.length).toList ++ [')']))) := by
  have hopen : " (".toList = [' ', '('] := by simp
  have hvalues : ") VALUES (".toList = ')' :: (" VALUES ".toList ++ ['(']) := by simp
  have hclose : ")".toList = [')'] := by simp
  unfold Statement.insertInto Statement.columnList
  generalize Statement.placeholders columns.length = places
  generalize ", ".intercalate columns = listing
  simp only [String.toList_append, hopen, hvalues, hclose, List.append_assoc, List.cons_append,
    List.nil_append]

section Placeholders

variable {n : Nat}

theorem isName_of_mem_placeholders :
    ∀ s ∈ (List.range n).map fun i => "$" ++ Numeral.text (i + 1), IsName s :=
  List.forall_mem_map.2 fun i _ => isName_placeholder (i + 1)

theorem placeholders_noBracket : ∀ c ∈ (Statement.placeholders n).toList, isBracket c = false := by
  have hlisting := listing_noBracket isBlank_empty (isName_of_mem_placeholders (n := n))
  rwa [String.toList_empty, List.nil_append, List.append_nil] at hlisting

theorem places_placeholders (hn : n ≠ 0) :
    (items (Statement.placeholders n).toList).mapM place? = some ((List.range n).map (· + 1)) := by
  have hitems := items_listing isBlank_empty (isName_of_mem_placeholders (n := n)) (by simpa using hn)
  rw [String.toList_empty, List.nil_append, List.append_nil] at hitems
  rw [Statement.placeholders, hitems]
  refine mapM_eq_some_of_forall₂ (List.forall₂_map_left_iff.2 (List.forall₂_map_right_iff.2 ?_))
  exact List.forall₂_same.2 fun i _ => place?_placeholder (i + 1)

end Placeholders

/-- Columns that can be told apart in a list. -/
structure Listable (columns : List String) : Prop where
  ne_nil : columns ≠ []
  names : ∀ s ∈ columns, IsName s
  distinct : columns.Nodup

section Inserting

variable {table blank : String} {columns : List String} (htable : IsName table)
  (hblank : IsBlank blank) (hcolumns : Listable columns)
include htable hblank hcolumns

/-- An insertion is read as its columns, with the placeholders from 1 on. -/
theorem insertion?_insertInto : insertion? (Statement.insertInto table blank columns) =
    some (columns, (List.range columns.length).map (· + 1)) := by
  have hlength : columns.length ≠ 0 := by simpa using hcolumns.ne_nil
  have hhead : ∀ c ∈ "INSERT INTO ".toList ++ table.toList ++ [' '], isBracket c = false := by
    have hname : ∀ c ∈ table.toList, isBracket c = false := fun c hc => (isName_iff.1 htable c hc).2.2
    exact List.forall_mem_append.2
      ⟨List.forall_mem_append.2 ⟨by simp [isBracket], hname⟩, by simp [isBracket]⟩
  -- No part has a bracket, so the text falls apart at those around the two lists.
  have hcut : (Statement.insertInto table blank columns).toList.splitOnP isBracket =
      ["INSERT INTO ".toList ++ table.toList ++ [' '],
        blank.toList ++ (", ".intercalate columns).toList ++ blank.toList, " VALUES ".toList,
        (Statement.placeholders columns.length).toList, []] := by
    rw [toList_insertInto, List.splitOnP_append_cons_of_forall_mem hhead _ rfl,
      List.splitOnP_append_cons_of_forall_mem (listing_noBracket hblank hcolumns.names) _ rfl,
      List.splitOnP_append_cons_of_forall_mem (by simp [isBracket]) _ rfl,
      List.splitOnP_append_cons_of_forall_mem placeholders_noBracket _ rfl]
    rfl
  rw [insertion?, hcut]
  dsimp only
  rw [if_pos ⟨(List.append_assoc _ _ _).symm ▸ List.prefix_append _ _, rfl⟩,
    places_placeholders hlength, items_listing hblank hcolumns.names hcolumns.ne_nil]
  rfl

/-- Under each column stands the value at its position. -/
theorem inserted?_insertInto {values : List Value} (hlength : columns.length = values.length) :
    Statement.inserted? ⟨Statement.insertInto table blank columns, values⟩ =
      some (columns.zip values) := by
  have hbound : ((List.range columns.length).map (· + 1)).mapM
      (Statement.bound? ⟨Statement.insertInto table blank columns, values⟩) = some values := by
    refine mapM_eq_some_of_forall₂ (List.forall₂_map_left_iff.2 (List.forall₂_iff_get.2 ⟨by simpa, ?_⟩))
    intro i _ hi
    rw [List.get_eq_getElem, List.getElem_range]
    exact List.getElem?_eq_getElem hi
  rw [Statement.inserted?, insertion?_insertInto htable hblank hcolumns]
  dsimp only
  rw [if_pos (by simp), hbound]
  rfl

end Inserting

end SyncCascade.Postgres
