import ShellPrompt.Proofs.Markup.Appending
/-!
Color specs written one after the other without a gap. A color takes one character or seven, and
digits of a mixed color may be letters of other colors, yet a spec ends where it ends alone. Main
statement: two specs put together are one spec, which sets what the two set in turn, also behind the
symbol of a transition (`specs_glue`).
-/

set_option autoImplicit false

namespace ShellPrompt

namespace Spec

theorem andThen_assoc (first second third : Spec) :
    (first.andThen second).andThen third = first.andThen (second.andThen third) := by
  simp [andThen, Option.or_assoc, Bool.or_assoc]

theorem andThen_empty (spec : Spec) : spec.andThen empty = spec := by
  simp [andThen, empty]

end Spec

namespace ColorSpec

theorem scanAttribute_append {s rest : Text} {next : Spec}
    (h : scanAttribute s = .ok (next, rest)) (more : Text) :
    scanAttribute (s ++ more) = .ok (next, rest ++ more) ∧ begins (s ++ more) = true := by
  obtain ⟨raw, rfl, hattribute⟩ := isAttribute_of_scanAttribute_eq_ok h
  obtain ⟨spec, hscan⟩ := exists_scanAttribute_eq_ok hattribute
  have hspec : spec = next := by
    have hrest := hscan rest
    rw [h] at hrest
    cases hrest
    rfl
  rw [List.append_assoc, ← hspec]
  exact ⟨hscan (rest ++ more), begins_of_isAttribute hattribute (rest ++ more)⟩

theorem scanAfter_append {before spec : Spec} {s : Text}
    (h : scanAfter before s = .ok (spec, [])) (more : Text) :
    scanAfter before (s ++ more) = scanAfter spec more := by
  fun_induction scanAfter before s with
  | case1 => cases h
  | case2 before s _ next rest hattribute ih =>
    obtain ⟨hscan, hbegins⟩ := scanAttribute_append hattribute more
    rw [scanAfter_of_scanAttribute hbegins hscan]
    exact ih h
  | case3 before s _ =>
    cases h
    rfl

theorem scanAfter_andThen (first : Spec) {before spec : Spec} {s rest : Text}
    (h : scanAfter before s = .ok (spec, rest)) :
    scanAfter (first.andThen before) s = .ok (first.andThen spec, rest) := by
  fun_induction scanAfter before s with
  | case1 => cases h
  | case2 before s hbegins next after hattribute ih =>
    rw [scanAfter_of_scanAttribute hbegins hattribute, Spec.andThen_assoc]
    exact ih h
  | case3 before s hbegins =>
    cases h
    exact scanAfter_of_not_begins (Bool.eq_false_iff.mpr hbegins)

/-- Two whole specs are one whole spec when they are put together. -/
theorem scan_append {x y : Text} {first second : Spec} (hx : scan x = .ok (first, []))
    (hy : scan y = .ok (second, [])) : scan (x ++ y) = .ok (first.andThen second, []) :=
  calc scan (x ++ y)
    _ = scanAfter first y := scanAfter_append hx y
    _ = scanAfter (first.andThen Spec.empty) y := by rw [Spec.andThen_empty]
    _ = .ok (first.andThen second, []) := scanAfter_andThen first hy

theorem begins_append_of_scan {x : Text} {spec : Spec} (hbegins : begins x = true)
    (hscan : scan x = .ok (spec, [])) (more : Text) : begins (x ++ more) = true := by
  obtain ⟨raw, hraw, hspec⟩ := (isSpec_of_scanAfter_eq_ok hscan).2 hbegins
  rw [hraw, List.append_nil]
  exact begins_of_isSpec hspec more

end ColorSpec

namespace Lexing

theorem ofMarkup_eq_spec_iff {x : Text} {spec : Spec} :
    ofMarkup x = ⟨[⟨0, x, .spec spec⟩], none⟩ ↔
      ColorSpec.begins x = true ∧ ColorSpec.scan x = .ok (spec, []) := by
  constructor
  · intro h
    have hmem : (⟨0, x, .spec spec⟩ : Token) ∈ (ofMarkup x).tokens := by simp [h]
    obtain ⟨c, raw, hraw, -, hscan⟩ := exists_scan_of_mem_ofRest hmem
    cases hraw
    exact Lexeme.isReadFrom_of_scan_eq_ok hscan
  · rintro ⟨hbegins, hscan⟩
    cases x with
    | nil => cases hbegins
    | cons c raw =>
      have hline : c.isLineEnd = false := by
        rw [Bool.eq_false_iff, Ne, CodePoint.isLineEnd_iff, not_or]
        exact ⟨ColorSpec.ne_of_begins hbegins rfl, ColorSpec.ne_of_begins hbegins rfl⟩
      refine ofMarkup_of_scan_eq_ok hline ?_
      rw [Lexeme.scan_spec hbegins, Lexeme.scanSpec, hscan]

theorem ofMarkup_transition (t : Transition) {x : Text} {spec : Spec}
    (hbegins : ColorSpec.begins x = true) (hscan : ColorSpec.scan x = .ok (spec, [])) :
    ofMarkup (t.symbol :: x) =
      ⟨[⟨0, t.symbol :: x, .transition t (some spec)⟩], none⟩ := by
  have hline : t.symbol.isLineEnd = false := by cases t <;> rfl
  refine ofMarkup_of_scan_eq_ok hline ?_
  rw [Lexeme.scan_transition, Lexeme.scanTransition, if_pos hbegins, hscan]

end Lexing

/--
Let two texts each be one color spec. Together they are one color spec: its colors are those of the
second, or else those of the first, and it is bold or italic if either is. To apply it is to apply
the two in turn. Behind the symbol of a transition both the first alone and the two together are the
spec of the transition.
-/
theorem specs_glue {x y : Text} {first second : Spec}
    (hx : Lexing.ofMarkup x = ⟨[⟨0, x, .spec first⟩], none⟩)
    (hy : Lexing.ofMarkup y = ⟨[⟨0, y, .spec second⟩], none⟩) :
    ∃ both : Spec, Lexing.ofMarkup (x ++ y) = ⟨[⟨0, x ++ y, .spec both⟩], none⟩ ∧
      both.foreground = second.foreground.or first.foreground ∧
      both.background = second.background.or first.background ∧
      both.bold = (first.bold || second.bold) ∧ both.italic = (first.italic || second.italic) ∧
      (∀ style : Style, style.apply both = (style.apply first).apply second) ∧
      ∀ t : Transition,
        Lexing.ofMarkup (t.symbol :: x) =
          ⟨[⟨0, t.symbol :: x, .transition t (some first)⟩], none⟩ ∧
        Lexing.ofMarkup (t.symbol :: (x ++ y)) =
          ⟨[⟨0, t.symbol :: (x ++ y), .transition t (some both)⟩], none⟩ := by
  obtain ⟨hbegins, hfirst⟩ := Lexing.ofMarkup_eq_spec_iff.mp hx
  obtain ⟨-, hsecond⟩ := Lexing.ofMarkup_eq_spec_iff.mp hy
  have hboth := ColorSpec.scan_append hfirst hsecond
  have hbeginsBoth := ColorSpec.begins_append_of_scan hbegins hfirst y
  refine ⟨first.andThen second, Lexing.ofMarkup_eq_spec_iff.mpr ⟨hbeginsBoth, hboth⟩, rfl, rfl, rfl,
    rfl, fun style => style.apply_andThen first second, ?_⟩
  intro t
  exact ⟨Lexing.ofMarkup_transition t hbegins hfirst,
    Lexing.ofMarkup_transition t hbeginsBoth hboth⟩

/-- The letters behind the six digits are digits too, and the second background wins. -/
theorem specs_glue_letters :
    let x : Text := "#abcdef:g!"
    let y : Text := "bc:#00ff7F/"
    let first : Spec := ⟨some (.rgb (.ofNumbers 0xAB 0xCD 0xEF)), some (.basic .green), true, false⟩
    let second : Spec := ⟨some (.basic .cyan), some (.rgb (.ofNumbers 0 0xFF 0x7F)), false, true⟩
    Lexing.ofMarkup x = ⟨[⟨0, x, .spec first⟩], none⟩ ∧
    Lexing.ofMarkup y = ⟨[⟨0, y, .spec second⟩], none⟩ ∧
    ∃ both : Spec, Lexing.ofMarkup (x ++ y) = ⟨[⟨0, x ++ y, .spec both⟩], none⟩ ∧
      both.foreground = some (.basic .cyan) ∧
      both.background = some (.rgb (.ofNumbers 0 0xFF 0x7F)) ∧
      both.bold = true ∧ both.italic = true := by
  intro x y first second
  have hx : Lexing.ofMarkup x = ⟨[⟨0, x, .spec first⟩], none⟩ := by decide +kernel
  have hy : Lexing.ofMarkup y = ⟨[⟨0, y, .spec second⟩], none⟩ := by decide +kernel
  obtain ⟨both, hboth, hforeground, hbackground, hbold, hitalic, -⟩ := specs_glue hx hy
  exact ⟨hx, hy, both, hboth, hforeground, hbackground, hbold, hitalic⟩

end ShellPrompt
