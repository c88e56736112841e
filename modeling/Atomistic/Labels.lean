import Std.Data.HashMap
import Atomistic.Error

/-!
# Label tables

The rows and columns of a descriptor are described by tables of labels: named variables, and rows
of integers that these variables take together. A table is an ordered set of rows. Rows are added
one at a time to a builder, which refuses a row of the wrong width and a row that it has; the
builder remembers where each row is in a hash table, and carries the proof that this agrees with
the rows.
-/

namespace Atomistic

/-- A letter of the English alphabet or an underscore. -/
def isIdentifierStart (c : Char) : Bool := c.isAlpha || c == '_'

/-- Names of variables are made of letters, digits and underscores, the first one not a digit. -/
def isIdentifier (name : String) : Bool :=
  match name.toList with
  | [] => false
  | first :: rest => isIdentifierStart first && rest.all fun c => isIdentifierStart c || c.isDigit

/-- The largest label: labels are signed words of 32 bits. -/
def maxLabel : Nat := 0x7FFFFFFF

/-- The label of a count or position. Labels are 32-bit, larger numbers have none. -/
def labelOfNat (n : Nat) : Except Error Int :=
  if n ≤ maxLabel then .ok n else .error (.panic (.labelTooLarge n))

/-- A label used as a position. -/
def positionOfLabel (label : Int) : Except Error Nat :=
  if 0 ≤ label then .ok label.toNat else .error (.panic .unspecified)

/-- Names that a table may have: identifiers, each once. -/
structure NamesValid (names : List String) : Prop where
  identifiers : ∀ name ∈ names, isIdentifier name = true
  nodup : names.Nodup

/-- A table of labels. -/
structure Labels where
  names : List String
  rows : List (List Int)
  names_valid : NamesValid names
  width : ∀ row ∈ rows, row.length = names.length
  nodup : rows.Nodup
  deriving DecidableEq

namespace Labels

@[ext] theorem ext {s t : Labels} (names : s.names = t.names) (rows : s.rows = t.rows) : s = t := by
  cases s; cases t; subst names; subst rows; rfl

/-- The table without variables and without rows. -/
def empty : Labels where
  names := []
  rows := []
  names_valid := ⟨by simp, .nil⟩
  width := by simp
  nodup := .nil

/-- The number of variables. -/
def size (t : Labels) : Nat := t.names.length

/-- The number of rows. -/
def count (t : Labels) : Nat := t.rows.length

/-- Where a row is in the table. -/
def position (t : Labels) (row : List Int) : Option Nat := t.rows.idxOf? row

/-- Is this one of the rows? -/
def contains (t : Labels) (row : List Int) : Bool := (t.position row).isSome

/-- The row at a position. -/
def row (t : Labels) (i : Nat) : Except Error (List Int) :=
  match t.rows[i]? with
  | some row => .ok row
  | none => .error (.panic (.rowOutOfBounds i t.count))

/-- All labels, row after row. -/
def flat (t : Labels) : List Int := t.rows.flatten

theorem length_flat (t : Labels) : t.flat.length = t.count * t.size := by
  have widths : t.rows.map List.length = List.replicate t.count t.size :=
    List.map_eq_replicate_iff.2 t.width
  rw [flat, List.length_flatten, widths, List.sum_replicate_nat]

/-- A place on the way through the rows of a table: how many are still to come, and their labels. -/
structure Cursor where
  size : Nat
  remaining : Nat
  values : List Int
  whole : values.length = remaining * size

/-- The next row, with the place behind it. -/
def Cursor.next? (c : Cursor) : Option (List Int × Cursor) :=
  match h : c.remaining with
  | 0 => none
  | remaining + 1 =>
    some (c.values.take c.size,
      { size := c.size
        remaining := remaining
        values := c.values.drop c.size
        whole := by rw [List.length_drop, c.whole, h, Nat.succ_mul, Nat.add_sub_cancel] })

/-- The place after some number of steps, none of which leads beyond the end. -/
def Cursor.advance (c : Cursor) : Nat → Cursor
  | 0 => c
  | steps + 1 =>
    match c.next? with
    | none => c
    | some (_, behind) => behind.advance steps

/-- The place in front of all rows. -/
def cursor (t : Labels) : Cursor := ⟨t.size, t.count, t.flat, t.length_flat⟩

/-- The name of each variable as bytes, with a final zero. -/
def encodedNames (t : Labels) : List (List UInt8) := t.names.map fun n => Utf8.encode n ++ [0]

/-- A text in the middle of a field of the given width, the odd space behind it. -/
def centered (width : Nat) (text : String) : String :=
  let space := width - text.length
  String.ofList (List.replicate (space / 2) ' ') ++ text
    ++ String.ofList (List.replicate (space - space / 2) ' ')

/-- One line of the listing of a table: every label below its name. -/
def listRow (names : List String) (row : List Int) : String :=
  let fields := (row.zip names).map fun (v, name) => centered name.length (toString v) ++ "  "
  "    " ++ String.join fields ++ "\n"

/-- A table as a listing of its names and rows. -/
def listing (t : Labels) : String :=
  "Indexes\x7b\n    " ++ commaList t.names ++ "\n" ++ String.join (t.rows.map (listRow t.names))
    ++ "\x7d\n"

theorem idxOf?_concat {β : Type} [BEq β] [LawfulBEq β] (l : List β) (b : β) (h : b ∉ l) (r : β) :
    (l ++ [b]).idxOf? r = if b == r then some l.length else l.idxOf? r := by
  induction l with
  | nil => simp [List.idxOf?_cons]
  | cons a l ih =>
    have hl : b ∉ l := fun m => h (List.mem_cons_of_mem _ m)
    have hab : a ≠ b := fun e => h (e ▸ List.mem_cons_self)
    rw [List.cons_append, List.idxOf?_cons, List.idxOf?_cons, ih hl]
    by_cases har : a = r
    · subst har
      simp [Ne.symm hab]
    · by_cases hbr : b = r <;> simp [har, hbr]

/-- A table under construction, with the position of each row. A new row is given its position before
it joins the others, so that both collections grow in place. -/
structure Builder where
  names : List String
  positions : Std.HashMap (List Int) Nat
  rows : Array (List Int)
  names_valid : NamesValid names
  width : ∀ row ∈ rows.toList, row.length = names.length
  agree : ∀ row, positions[row]? = rows.toList.idxOf? row
  nodup : rows.toList.Nodup

namespace Builder

/-- A builder for rows of the given variables. -/
def new (names : List String) : Except Error Builder :=
  match h : names.find? fun name => !isIdentifier name with
  | some name => .error (.panic (.labelName name))
  | none =>
    if nodup : names.Nodup then
      .ok {
        names := names
        positions := ∅
        rows := #[]
        names_valid := ⟨by simpa using h, nodup⟩
        width := by simp
        agree := by simp
        nodup := by simp }
    else .error (.panic .labelNameTwice)

/-- The number of variables. -/
def size (b : Builder) : Nat := b.names.length

/-- The number of rows so far. -/
def count (b : Builder) : Nat := b.rows.size

theorem not_mem_of_positions {b : Builder} {row : List Int} (h : b.positions[row]? = none) :
    row ∉ b.rows.toList := by
  rw [b.agree] at h
  exact List.idxOf?_eq_none_iff.1 h

/-- Add a row, which has one label per variable and is not there yet. -/
def add (b : Builder) (row : List Int) : Except Error Builder :=
  if width : row.length = b.names.length then
    match h : b.positions[row]? with
    | some existing => .error (.parameter (.rowRepeated row existing))
    | none =>
      have fresh := not_mem_of_positions h
      .ok { b with
        positions := b.positions.insert row b.rows.size
        rows := b.rows.push row
        width := by
          intro r hr
          rw [Array.toList_push, List.mem_append, List.mem_singleton] at hr
          exact hr.elim (b.width r) fun e => e ▸ width
        agree := by
          intro r
          rw [Std.HashMap.getElem?_insert, Array.toList_push, idxOf?_concat _ _ fresh, b.agree]
          simp
        nodup := by
          rw [Array.toList_push, List.nodup_append]
          exact ⟨b.nodup, by simp, fun a ha c hc e => fresh (by simp_all)⟩ }
  else .error (.parameter (.rowSize row.length b.names.length))

/-- Offer a row: the answer to it, and the builder after it. A refused row leaves the builder as it
is. -/
def offer (b : Builder) (row : List Int) : Except Error Unit × Builder :=
  match b.add row with
  | .ok more => (.ok (), more)
  | .error e => (.error e, b)

/-- Offer rows one after the other: the answers to them, and the builder after all of them. -/
def offerAll (b : Builder) : List (List Int) → List (Except Error Unit) × Builder
  | [] => ([], b)
  | row :: rows =>
    let (answer, after) := b.offer row
    let (answers, last) := after.offerAll rows
    (answer :: answers, last)

/-- Add rows until one is refused. -/
def addAll (b : Builder) (rows : List (List Int)) : Except Error Builder := rows.foldlM add b

/-- The table of the rows added so far. -/
def finish (b : Builder) : Labels := ⟨b.names, b.rows.toList, b.names_valid, b.width, b.nodup⟩

end Builder

/-- The table with the given names and rows. -/
def ofRows (names : List String) (rows : List (List Int)) : Except Error Labels := do
  let builder ← Builder.new names
  return (← builder.addAll rows).finish

/-- The position of every row, for many questions about one table. -/
def index (t : Labels) : Std.HashMap (List Int) Nat :=
  (t.rows.foldl (fun (map, i) row => (map.insert row i, i + 1)) (∅, 0)).1

end Labels

end Atomistic
