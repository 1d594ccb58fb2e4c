import ShellPrompt.Number.Total
import ShellPrompt.Text.Basic
import ShellPrompt.Text.Width.Tables
/-!
The number of terminal columns that a text takes. A text without control characters is measured
from left to right, where a zero width joiner hides the character after it and U+FE0F may widen
the last character that took a column. A text with control characters is measured character by
character, and the control characters count nothing. The rules of both, and the tables, are those
of wcwidth 0.2.13, which measures for the program but is no part of it.
-/

set_option autoImplicit false

namespace ShellPrompt

namespace CodePoint

def isControl (c : CodePoint) : Bool :=
  (0x1 ≤ c.val && c.val ≤ 0x1f) || (0x7f ≤ c.val && c.val ≤ 0x9f)

/-- The columns of a character on its own; a control character has no width. -/
def columns? (c : CodePoint) : Option Nat :=
  if 0x20 ≤ c.val && c.val ≤ 0x7e then some 1
  else if c.isControl then none
  else if zeroWidth.contains c.val then some 0
  else if wide.contains c.val then some 2
  else some 1

def columns (c : CodePoint) : Nat :=
  c.columns?.getD 0

/-- U+200D, which joins the character after it to the one before. -/
def joiner : CodePoint := ⟨0x200D, by decide⟩

/-- U+FE0F, which asks for the picture form of the character before it. -/
def selector : CodePoint := ⟨0xFE0F, by decide⟩

/-- The column that U+FE0F adds after this character. -/
def widening (c : CodePoint) : Nat :=
  if widenedBySelector.contains c.val then 1 else 0

end CodePoint

namespace Text

/--
The columns of a text after `last`, the character that U+FE0F would widen; none if the text has a
control character that no joiner hides.
-/
def columnsAfter? (last : Option CodePoint) : Text → Option Nat
  | [] => some 0
  | c :: rest =>
    if c = CodePoint.joiner then
      match rest with
      | [] => some 0
      | _ :: rest => columnsAfter? last rest
    else if c = CodePoint.selector && last.isSome then
      (columnsAfter? none rest).map (last.elim 0 CodePoint.widening + ·)
    else
      match c.columns? with
      | none => none
      | some n => (columnsAfter? (if n = 0 then last else some c) rest).map (n + ·)

def width (t : Text) : Nat :=
  match columnsAfter? none t with
  | some n => n
  | none => total (t.map CodePoint.columns)

end Text

end ShellPrompt
