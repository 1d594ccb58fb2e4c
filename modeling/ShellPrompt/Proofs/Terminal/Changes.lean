import ShellPrompt.Proofs.Terminal.Reading
/-!
Changes of style as orders. The codes that lead from one style to another are the codes of a few
orders, and obeying these leads exactly to the part of the target that needs no reset.
-/

set_option autoImplicit false

namespace ShellPrompt

namespace Style

/-- The orders that change a style into another as far as that is possible without a reset. -/
def ordersTo (style target : Style) : List Order :=
  (if target.bold && !style.bold then [.bold] else []) ++
  (if target.italic && !style.italic then [.italic] else []) ++
  (if target.foreground = style.foreground then [] else [.color .foreground target.foreground]) ++
  (if target.background = style.background then [] else [.color .background target.background])

theorem codesTo_eq_map_code (style target : Style) :
    style.codesTo target = (style.ordersTo target).map Order.code := by
  simp only [codesTo, ordersTo, List.map_append]
  congr 1
  · congr 1
    · congr 1 <;> split <;> rfl
    · split <;> rfl
  · split <;> rfl

/-- Obeying the orders of a change leads to the part of the target that needs no reset. -/
theorem foldl_obey_ordersTo (style target : Style) :
    (style.ordersTo target).foldl obey style = style.reachable target := by
  rcases style with ⟨foreground, background, bold, italic⟩
  rcases target with ⟨foreground', background', bold', italic'⟩
  by_cases hforeground : foreground' = foreground <;>
    by_cases hbackground : background' = background <;>
    cases bold <;> cases bold' <;> cases italic <;> cases italic' <;>
    simp [ordersTo, reachable, obey, hforeground, hbackground]

@[simp] theorem reachable_reachable (style target : Style) :
    style.reachable (style.reachable target) = style.reachable target := by
  simp [reachable]

theorem ordersTo_self (style : Style) : style.ordersTo style = [] := by
  simp [ordersTo]

theorem ordersTo_reachable (style target : Style) :
    style.ordersTo (style.reachable target) = style.ordersTo target := by
  rcases style with ⟨_, _, bold, italic⟩
  cases bold <;> cases italic <;> simp [ordersTo, reachable]

theorem ordersTo_eq_nil_iff {style target : Style} :
    style.ordersTo target = [] ↔ style = style.reachable target := by
  constructor
  · intro h
    rw [← foldl_obey_ordersTo, h, List.foldl_nil]
  · intro h
    rw [← ordersTo_reachable, ← h, ordersTo_self]

theorem codesTo_eq_nil_iff {style target : Style} :
    style.codesTo target = [] ↔ style = style.reachable target := by
  rw [codesTo_eq_map_code, List.map_eq_nil_iff, ordersTo_eq_nil_iff]

theorem afterSequences?_append (style : Style) (sequences more : List Text) :
    style.afterSequences? (sequences ++ more) =
      (style.afterSequences? sequences).bind fun style => style.afterSequences? more := by
  induction sequences generalizing style with
  | nil => rfl
  | cons t sequences ih =>
    rw [List.cons_append, afterSequences?, afterSequences?]
    cases Order.ofSequence? t with
    | none => rfl
    | some orders => exact ih _

theorem afterSequences?_escapeSequence (style : Style) {orders : List Order} (h : orders ≠ []) :
    style.afterSequences? [escapeSequence (orders.map Order.code)] =
      some (orders.foldl obey style) := by
  rw [afterSequences?, Order.ofSequence?_escapeSequence h]
  rfl

end Style

end ShellPrompt
