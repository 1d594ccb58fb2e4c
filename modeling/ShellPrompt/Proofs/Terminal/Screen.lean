import ShellPrompt.Proofs.Render.Pieces
/-!
What a terminal shows of the pieces it is sent: each text in the style that is current when it
arrives, where only escape sequences, read from their texts, change that style. One drawing leads to
another by the pieces drawn between them; drawing text, changing the style and resetting it are
such steps, and steps can be joined.
-/

set_option autoImplicit false

namespace ShellPrompt

/-- The texts that a terminal was sent, each with the style it appears in, and the current style. -/
structure Screen where
  texts : List (Text × Style)
  style : Style
deriving DecidableEq

def Screen.receive? (screen : Screen) : Piece → Option Screen
  | .text t _ => some { screen with texts := screen.texts ++ [(t, screen.style)] }
  | .escape codes =>
    (screen.style.afterSequences? [(Piece.escape codes).written .raw]).map fun style =>
      { screen with style := style }

theorem Screen.receive?_escape (screen : Screen) {orders : List Order} (h : orders ≠ []) :
    screen.receive? (.escape (orders.map Order.code)) =
      some { screen with style := orders.foldl Style.obey screen.style } := by
  rw [receive?, Piece.written_raw_escape, Style.afterSequences?_escapeSequence _ h]
  rfl

theorem Style.reachable_eq_self {style target : Style} (hbold : style.bold = true → target.bold)
    (hitalic : style.italic = true → target.italic) : style.reachable target = target := by
  rcases style with ⟨_, _, bold, italic⟩
  rcases target with ⟨_, _, bold', italic'⟩
  cases bold <;> cases bold' <;> cases italic <;> cases italic' <;> simp_all [reachable]

namespace Drawing

/--
The pieces draw one line on to the other. A terminal in the style of the first receives them as
these texts, each in its style, and is then in the style of the second.
-/
structure Leads (drawing next : Drawing) (pieces : List Piece) (texts : List (Text × Style)) :
    Prop where
  line : next.line = pieces.foldl Line.draw drawing.line
  shown : ∀ earlier, pieces.foldlM Screen.receive? ⟨earlier, drawing.style⟩ =
    some ⟨earlier ++ texts, next.style⟩

variable {drawing next last : Drawing} {pieces more : List Piece} {texts later : List (Text × Style)}

theorem Leads.trans (h : drawing.Leads next pieces texts) (hnext : next.Leads last more later) :
    drawing.Leads last (pieces ++ more) (texts ++ later) where
  line := by rw [List.foldl_append, ← h.line, hnext.line]
  shown := by
    intro earlier
    have hmore := hnext.shown (earlier ++ texts)
    rw [List.foldlM_append, h.shown, Option.bind_eq_bind, Option.bind_some, hmore,
      List.append_assoc]

theorem leads_refl (hline : next.line = drawing.line) (hstyle : next.style = drawing.style) :
    drawing.Leads next [] [] where
  line := hline
  shown := by
    intro earlier
    rw [List.append_nil, hstyle]
    rfl

theorem leads_text (drawing : Drawing) (t : Text) (literal : Bool) :
    drawing.Leads (drawing.text t literal) [.text t literal] [(t, drawing.style)] where
  line := rfl
  shown := fun _ => rfl

theorem leads_escape {orders : List Order} (hne : orders ≠ [])
    (hline : next.line = drawing.line.draw (.escape (orders.map Order.code)))
    (hstyle : next.style = orders.foldl Style.obey drawing.style) :
    drawing.Leads next [.escape (orders.map Order.code)] [] where
  line := hline
  shown := by
    intro earlier
    rw [List.foldlM_cons, Screen.receive?_escape _ hne, List.append_nil, hstyle]
    rfl

theorem leads_reset (drawing : Drawing) :
    drawing.Leads drawing.reset [.escape [Style.resetCode]] [] := by
  have hne : ([.reset] : List Order) ≠ [] := by simp
  exact leads_escape hne rfl rfl

theorem exists_leads_changeStyle (drawing : Drawing) (target : Style) :
    ∃ pieces, drawing.Leads (drawing.changeStyle target) pieces [] ∧
      pieces.flatMap Piece.visible = [] := by
  rcases drawing.changeStyle_eq_or target with hsame | ⟨orders, hne, hline, hstyle⟩
  · exact ⟨[], leads_refl (by rw [hsame]) (by rw [hsame]), rfl⟩
  · exact ⟨_, leads_escape hne hline hstyle, rfl⟩

end Drawing

end ShellPrompt
