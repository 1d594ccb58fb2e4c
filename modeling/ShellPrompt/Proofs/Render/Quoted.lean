import ShellPrompt.Proofs.Markup.Written
import ShellPrompt.Render.Rendering
/-!
Quoted text on its own. Main statement: whatever is taken to print, a quote is lexed as one literal
over all of it and drawn as what it keeps of the text, which is all of it but for what neither
prints nor has a number (`quoted_reads_back`).
-/

set_option autoImplicit false

namespace ShellPrompt

namespace Literal

theorem ofMarkup_quoteBy (prints : CodePoint → Bool) (t : Text) :
    Lexing.ofMarkup (quoteBy prints t) =
      ⟨[⟨0, quoteBy prints t, .literal (t.map (keptOne prints))⟩], none⟩ := by
  have hread := Lexeme.scan_quoted prints t []
  rw [List.append_nil] at hread
  exact Lexing.ofMarkup_of_scan_eq_ok rfl hread

theorem output_ofLexing_literal (width : Int) (choices : Choices) (start : Nat) (raw text : Text) :
    let rendering := Rendering.ofLexing width choices ⟨[⟨start, raw, .literal text⟩], none⟩
    rendering.output .raw = text ∧ rendering.error = none := by
  have hrow : (Rendering.ofLexing width choices ⟨[⟨start, raw, .literal text⟩], none⟩).rows =
      [⟨⟨none, [.text text true]⟩, []⟩] := rfl
  refine ⟨?_, rfl⟩
  rw [Rendering.output, hrow]
  simp [Text.join, Row.written, Segment.written, Piece.written, ShellMode.protect]

/--
Whatever characters are taken to print, the quote of a text is lexed as one literal over all of it.
The literal says the text with U+FFFD for what neither prints nor is at most U+FFFF, and drawn alone
it writes just that. So texts without such characters have different quotes.
-/
theorem quoted_reads_back (prints : CodePoint → Bool) (t : Text) :
    let quoted := quoteBy prints t
    let value := t.map fun c =>
      if prints c = true ∨ c.val ≤ 0xFFFF then c else CodePoint.ofNat 0xFFFD
    Lexing.ofMarkup quoted = ⟨[⟨0, quoted, .literal value⟩], none⟩ ∧
      (∀ width choices, (Rendering.ofMarkup width choices quoted).output .raw = value ∧
        (Rendering.ofMarkup width choices quoted).error = none) ∧
      ∀ u : Text, (∀ c ∈ t ++ u, prints c = true ∨ c.val ≤ 0xFFFF) →
        quoteBy prints u = quoted → u = t := by
  intro quoted value
  have hlexed : Lexing.ofMarkup quoted = ⟨[⟨0, quoted, .literal value⟩], none⟩ :=
    ofMarkup_quoteBy prints t
  refine ⟨hlexed, ?drawn, ?injective⟩
  case drawn =>
    intro width choices
    rw [Rendering.ofMarkup, hlexed]
    exact output_ofLexing_literal width choices 0 quoted value
  case injective =>
    intro u hkept hsame
    obtain ⟨ht, hu⟩ := List.forall_mem_append.mp hkept
    have htokens := congrArg Lexing.tokens (ofMarkup_quoteBy prints u)
    rw [hsame, hlexed] at htokens
    injection htokens with htoken
    injection htoken with _ _ hlexeme
    injection hlexeme with hvalue
    calc u
      _ = u.map (keptOne prints) := (map_keptOne_eq_self hu).symm
      _ = t.map (keptOne prints) := hvalue.symm
      _ = t := map_keptOne_eq_self ht

/-- A half of a pair, what needs a backslash, a line end and a character above U+FFFF that prints. -/
theorem quoted_reads_back_surrogate :
    let prints : CodePoint → Bool := fun c => c.val < 0x80 || c.val == 0x1F600
    let t : Text := [⟨0xD800, by decide⟩, '\\', 'u', '"', '\n', ⟨0x1F600, by decide⟩]
    let quoted := quoteBy prints t
    let value := t.map fun c =>
      if prints c = true ∨ c.val ≤ 0xFFFF then c else CodePoint.ofNat 0xFFFD
    Lexing.ofMarkup quoted = ⟨[⟨0, quoted, .literal value⟩], none⟩ ∧
      (Rendering.ofMarkup 80 (.cycle [0]) quoted).output .raw = value ∧ value = t := by
  intro prints t quoted value
  obtain ⟨hlexed, hdrawn, hinjective⟩ := quoted_reads_back prints t
  have hkept : ∀ c ∈ t ++ value, prints c = true ∨ c.val ≤ 0xFFFF := by decide
  have hsame : quoteBy prints value = quoted := by decide +kernel
  exact ⟨hlexed, (hdrawn 80 (.cycle [0])).1, hinjective value hkept hsame⟩

end Literal

end ShellPrompt
