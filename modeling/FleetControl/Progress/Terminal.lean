/-!
A terminal, as far as a progress log makes use of it. A character takes one column, and text that goes past
the last column goes on in the next row. The cursor can be moved up, and what is below it be erased.
-/
namespace FleetControl.Progress

inductive Reading
  | text
  | escape
  | parameter (digits : List Char)
deriving DecidableEq, Repr

/-- `rows` are those that have scrolled off the screen and those that the cursor has come to on it. The
rows below them are blank. -/
structure Terminal where
  width : Nat
  height : Nat
  rows : List (List Char)
  row : Nat
  column : Nat
  reading : Reading
deriving DecidableEq, Repr

namespace Terminal

def blank (width height : Nat) : Terminal := ⟨width, height, [[]], 0, 0, .text⟩

def top (t : Terminal) : Nat := t.rows.length - t.height

def screen (t : Terminal) : List (List Char) := t.rows.drop t.top

def newLine (t : Terminal) : Terminal :=
  { t with
    rows := if t.row + 1 < t.rows.length then t.rows else t.rows ++ [[]]
    row := t.row + 1
    column := 0 }

def overwrite (column : Nat) (c : Char) (line : List Char) : List Char :=
  (line.rightpad column ' ').take column ++ c :: line.drop (column + 1)

def put (t : Terminal) (c : Char) : Terminal :=
  let t := if t.column < t.width then t else t.newLine
  { t with rows := t.rows.modify t.row (overwrite t.column c), column := t.column + 1 }

def moveUp (t : Terminal) (lines : Nat) : Terminal :=
  { t with row := max t.top (t.row - lines), column := 0 }

def eraseBelow (t : Terminal) : Terminal :=
  { t with
    rows := t.rows.take t.row ++ ((t.rows[t.row]?).getD []).take t.column ::
      List.replicate (t.rows.length - t.row - 1) [] }

def control (t : Terminal) (digits : List Char) (final : Char) : Terminal :=
  let n := Nat.ofDigitChars 10 digits 0
  if final = 'F' then t.moveUp (max n 1)
  else if final = 'J' ∧ n = 0 then t.eraseBelow
  else t

def feed (t : Terminal) (c : Char) : Terminal :=
  match t.reading with
  | .text =>
    if c = '\n' then t.newLine
    else if c = '\x1b' then { t with reading := .escape }
    else t.put c
  | .escape => { t with reading := if c = '[' then .parameter [] else .text }
  | .parameter digits =>
    if c.isDigit then { t with reading := .parameter (digits ++ [c]) }
    else { t with reading := .text }.control digits c

def write (t : Terminal) (text : String) : Terminal := text.toList.foldl feed t

end Terminal
end FleetControl.Progress
