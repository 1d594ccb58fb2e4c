import ShellPrompt.Markup.Cursor
import ShellPrompt.Proofs.Markup.Tiling
/-!
Cursors and the tokens of markup. A cursor that steps over a token from the token's place spans the
token's raw text, and it comes to the place after the token (`spans_token`); what the lexer reads as
a color spec is read alone as the same spec (`ofText_of_mem_tokens`).
-/

set_option autoImplicit false

namespace ShellPrompt

namespace Cursor

/-- The cursor on a text in three parts that spans the second. -/
def spanning (front raw rest : Text) : Cursor :=
  ⟨front ++ (raw ++ rest), front.length, (front.length + raw.length : Nat)⟩

def advance : Nat → Cursor → Cursor
  | 0, cursor => cursor
  | count + 1, cursor => advance count cursor.next.2

variable (front raw rest : Text)

theorem ofPosition_append : ofPosition (front ++ rest) front.length = spanning front [] rest := rfl

@[simp] theorem raw_spanning : (spanning front raw rest).raw = raw := by
  rw [Cursor.raw, spanning, between_natCast, ← List.append_assoc,
    List.take_left' List.length_append, List.drop_left]

@[simp] theorem hasMore_spanning : (spanning front raw rest).hasMore = !rest.isEmpty := by
  have hmore : front.length + raw.length < (front ++ (raw ++ rest)).length ↔ rest ≠ [] := by
    rw [← List.length_pos_iff]
    simp only [List.length_append]
    omega
  rw [Bool.eq_iff_iff]
  simp only [hasMore, spanning, decide_eq_true_eq, Int.ofNat_lt, hmore, Bool.not_eq_true',
    List.isEmpty_eq_false_iff]

theorem drop_spanning : (front ++ (raw ++ rest)).drop (front.length + raw.length) = rest := by
  rw [← List.append_assoc, List.drop_left' List.length_append]

@[simp] theorem isAt_spanning (symbol : Text) :
    (spanning front raw rest).isAt symbol = symbol.isPrefixOf rest := by
  have hinside : front.length + raw.length ≤ (front ++ (raw ++ rest)).length := by simp
  rw [isAt, spanning, startingAt_natCast, drop_spanning]
  simp only [Int.ofNat_le, hinside, decide_true, Bool.true_and]

theorem peek?_spanning {count : Nat} (h : count ≤ rest.length) :
    (spanning front raw rest).peek? count = some (rest.take count) := by
  have hinside : front.length + raw.length + count ≤ (front ++ (raw ++ rest)).length := by
    simp only [List.length_append]
    omega
  rw [peek?, spanning, ← Int.natCast_add, if_pos (Int.ofNat_le.mpr hinside), between_natCast,
    List.drop_take, drop_spanning, Nat.add_sub_cancel_left]

theorem next_spanning_cons (c : CodePoint) :
    (spanning front raw (c :: rest)).next = (some c, spanning front (raw ++ [c]) rest) := by
  have hmore := hasMore_spanning front raw (c :: rest)
  have hat : (front ++ (raw ++ c :: rest))[front.length + raw.length]? = some c := by
    rw [← List.head?_drop, drop_spanning, List.head?_cons]
  rw [next, hmore, spanning, elementAt?_natCast, hat]
  simp [spanning, Int.add_assoc]

theorem advance_spanning (more : Text) :
    (spanning front raw (more ++ rest)).advance more.length = spanning front (raw ++ more) rest := by
  induction more generalizing raw with
  | nil => rw [List.append_nil, List.nil_append, List.length_nil, advance]
  | cons c more ih =>
    rw [List.cons_append, List.length_cons, advance, next_spanning_cons, ih, List.append_assoc,
      List.singleton_append]

end Cursor

namespace Lexing

variable {markup : Text} {token : Token}

/--
A cursor at the place of a token sees the token's raw text before it. As many steps as this text is
long bring it to the place after the token, and what it spans then is the text.
-/
theorem spans_token (h : token ∈ (ofMarkup markup).tokens) :
    let cursor := Cursor.ofPosition markup token.start
    let stepped := cursor.advance token.raw.length
    cursor.hasMore = true ∧ cursor.isAt token.raw = true ∧
      cursor.peek? token.raw.length = some token.raw ∧
      stepped = ⟨markup, token.start, token.stop⟩ ∧ stepped.raw = token.raw := by
  intro cursor stepped
  obtain ⟨front, rest, hmarkup, hstart, hraw⟩ := exists_append_of_mem_ofRest h
  rw [Nat.zero_add] at hstart
  have hcursor : cursor = Cursor.spanning front [] (token.raw ++ rest) := by
    rw [← Cursor.ofPosition_append, ← hmarkup, ← hstart]
  have hstepped : stepped = Cursor.spanning front token.raw rest := by
    rw [← List.nil_append token.raw, ← Cursor.advance_spanning, ← hcursor]
  refine ⟨?_, ?_, ?_, ?_, ?_⟩
  · rw [hcursor, Cursor.hasMore_spanning]
    cases htoken : token.raw with
    | nil => exact absurd htoken hraw
    | cons c raw => rfl
  · rw [hcursor, Cursor.isAt_spanning, List.isPrefixOf_iff_prefix]
    exact List.prefix_append _ _
  · rw [hcursor, Cursor.peek?_spanning _ _ _ (by simp), List.take_left]
  · rw [hstepped, Cursor.spanning, ← hmarkup, ← hstart]
    rfl
  · rw [hstepped, Cursor.raw_spanning]

/-- The raw text of a color spec is read alone as the spec that it is in the markup. -/
theorem ofText_of_mem_tokens {spec : Spec} (h : token ∈ (ofMarkup markup).tokens)
    (hspec : token.lexeme = .spec spec) : Spec.ofText token.raw = .ok spec := by
  obtain ⟨c, raw, hraw, -, hscan⟩ := exists_scan_of_mem_ofRest h
  rw [hspec] at hscan
  obtain ⟨-, hread⟩ := Lexeme.isReadFrom_of_scan_eq_ok hscan
  rw [Spec.ofText, hraw, hread]

end Lexing

end ShellPrompt
