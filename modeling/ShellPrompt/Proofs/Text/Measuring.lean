import ShellPrompt.Text.Width
/-!
What measuring counts. A joiner takes the character after it out of the text that is measured, and
a U+FE0F adds a column to what stands before it; a text with a control character that no joiner
hides is measured without either. Main statement: exactly when a text is as wide as its printable
characters are, and that it is so without U+200D and U+FE0F (`width_printable_iff`).
-/

set_option autoImplicit false

namespace ShellPrompt

namespace CodePoint

variable {c : CodePoint}

theorem columns?_eq_none_iff : c.columns? = none ↔ c.isControl = true := by
  have hletter : 0x20 ≤ c.val ∧ c.val ≤ 0x7e → c.isControl = false := by
    simp only [isControl, Bool.or_eq_false_iff, Bool.and_eq_false_iff, decide_eq_false_iff_not]
    omega
  rw [columns?]
  by_cases hc : 0x20 ≤ c.val ∧ c.val ≤ 0x7e
  · simp [hc, hletter hc]
  · rw [if_neg (by simpa using hc)]
    cases c.isControl with
    | true => simp
    | false => simp; grind

theorem columns_of_isControl (h : c.isControl = true) : c.columns = 0 := by
  rw [columns, columns?_eq_none_iff.mpr h, Option.getD_none]

theorem columns?_of_not_isControl (h : c.isControl = false) : c.columns? = some c.columns := by
  cases hcolumns : c.columns? with
  | none =>
    rw [columns?_eq_none_iff.mp hcolumns] at h
    cases h
  | some n => rw [columns, hcolumns, Option.getD_some]

@[simp] theorem columns_joiner : joiner.columns = 0 := by decide +kernel

@[simp] theorem columns_selector : selector.columns = 0 := by decide +kernel

@[simp] theorem isControl_selector : selector.isControl = false := by decide

end CodePoint

namespace Text

variable {c d : CodePoint} {last : Option CodePoint} {t : Text}

/-- The characters that are measured: all but the joiners and those that they hide. -/
def measured : Text → Text
  | [] => []
  | c :: rest =>
    if c = CodePoint.joiner then
      match rest with
      | [] => []
      | _ :: rest => measured rest
    else c :: measured rest

/-- The characters that joiners hide: each that stands right after one. -/
def hidden : Text → Text
  | [] => []
  | c :: rest =>
    if c = CodePoint.joiner then
      match rest with
      | [] => []
      | d :: rest => d :: hidden rest
    else hidden rest

/-- The columns that each U+FE0F adds after the last character that took a column. -/
def widenedAfter (last : Option CodePoint) : Text → Nat
  | [] => 0
  | c :: rest =>
    if c = CodePoint.selector && last.isSome then
      last.elim 0 CodePoint.widening + widenedAfter none rest
    else widenedAfter (if c.columns = 0 then last else some c) rest

/-- A control character in the text is measured. -/
def hasOpenControl (t : Text) : Bool :=
  t.measured.any CodePoint.isControl

def hiddenColumns (t : Text) : Nat :=
  total (t.hidden.map CodePoint.columns)

def widenedColumns (t : Text) : Nat :=
  widenedAfter none t.measured

/-- The text without its control characters. -/
def printable (t : Text) : Text :=
  t.filter fun c => !c.isControl

@[simp] theorem hidden_joiner_cons (d : CodePoint) (t : Text) :
    hidden (CodePoint.joiner :: d :: t) = d :: hidden t := by
  rw [hidden, if_pos rfl]

theorem hidden_cons_of_ne (hc : c ≠ CodePoint.joiner) (t : Text) : hidden (c :: t) = hidden t := by
  rw [hidden.eq_def]
  exact if_neg hc

theorem columnsAfter?_joiner_cons (last : Option CodePoint) (d : CodePoint) (t : Text) :
    columnsAfter? last (CodePoint.joiner :: d :: t) = columnsAfter? last t := by
  rw [columnsAfter?, if_pos rfl]

theorem columnsAfter?_cons_of_ne (hc : c ≠ CodePoint.joiner) (last : Option CodePoint) (t : Text) :
    columnsAfter? last (c :: t) =
      if c = CodePoint.selector && last.isSome then
        (columnsAfter? none t).map (last.elim 0 CodePoint.widening + ·)
      else
        match c.columns? with
        | none => none
        | some n => (columnsAfter? (if n = 0 then last else some c) t).map (n + ·) := by
  rw [columnsAfter?.eq_def]
  exact if_neg hc

theorem columnsAfter?_measured (last : Option CodePoint) (t : Text) :
    columnsAfter? last t.measured = columnsAfter? last t := by
  fun_induction measured t generalizing last with
  | case1 => rfl
  | case2 => rfl
  | case3 d t ih => rw [columnsAfter?_joiner_cons, ih]
  | case4 c t hc ih => simp only [columnsAfter?_cons_of_ne hc, ih]

theorem joiner_not_mem_measured (t : Text) : CodePoint.joiner ∉ t.measured := by
  fun_induction measured t with
  | case1 => exact List.not_mem_nil
  | case2 => exact List.not_mem_nil
  | case3 d t ih => exact ih
  | case4 c t hc ih => simp [Ne.symm hc, ih]

theorem total_columns_measured (t : Text) :
    total (t.measured.map CodePoint.columns) + t.hiddenColumns =
      total (t.map CodePoint.columns) := by
  rw [hiddenColumns]
  fun_induction measured t with
  | case1 => rfl
  | case2 => simp [hidden]
  | case3 d t ih => simp [← ih]; omega
  | case4 c t hc ih => simp [hidden_cons_of_ne hc, ← ih]; omega

theorem columnsAfter?_of_not_mem (last : Option CodePoint) (hjoiner : CodePoint.joiner ∉ t) :
    columnsAfter? last t =
      if t.any CodePoint.isControl then none
      else some (total (t.map CodePoint.columns) + widenedAfter last t) := by
  induction t generalizing last with
  | nil => rfl
  | cons c t ih =>
    rw [List.mem_cons, not_or] at hjoiner
    rw [columnsAfter?_cons_of_ne (Ne.symm hjoiner.1), widenedAfter, List.any_cons, List.map_cons,
      total_cons]
    by_cases hselector : (c = CodePoint.selector && last.isSome) = true
    · have hc : c = CodePoint.selector := by simpa using (Bool.and_eq_true_iff.mp hselector).1
      rw [if_pos hselector, if_pos hselector, ih none hjoiner.2, hc, CodePoint.isControl_selector,
        CodePoint.columns_selector, Bool.false_or]
      split
      · rfl
      · simp only [Option.map_some, Option.some.injEq]
        omega
    · rw [if_neg hselector, if_neg hselector]
      cases hcontrol : c.isControl with
      | true => simp only [CodePoint.columns?_eq_none_iff.mpr hcontrol, Bool.true_or, if_true]
      | false =>
        simp only [CodePoint.columns?_of_not_isControl hcontrol, ih _ hjoiner.2, Bool.false_or]
        split
        · rfl
        · simp only [Option.map_some, Option.some.injEq]
          omega

theorem columnsAfter?_eq (t : Text) :
    columnsAfter? none t =
      if t.hasOpenControl then none
      else some (total (t.measured.map CodePoint.columns) + t.widenedColumns) := by
  rw [← columnsAfter?_measured, columnsAfter?_of_not_mem none t.joiner_not_mem_measured]
  rfl

theorem width_of_hasOpenControl (h : t.hasOpenControl = true) :
    t.width = total (t.map CodePoint.columns) := by
  rw [width, columnsAfter?_eq, if_pos h]

/-- Where none is, what is hidden does not count, and what is widened counts once more. -/
theorem width_add_hiddenColumns (h : t.hasOpenControl = false) :
    t.width + t.hiddenColumns = total (t.map CodePoint.columns) + t.widenedColumns := by
  have hwidth : t.width = total (t.measured.map CodePoint.columns) + t.widenedColumns := by
    rw [width, columnsAfter?_eq, if_neg (by simp [h])]
  rw [hwidth, ← total_columns_measured t]
  omega

theorem total_columns_printable (t : Text) :
    total (t.printable.map CodePoint.columns) = total (t.map CodePoint.columns) := by
  rw [printable]
  induction t with
  | nil => rfl
  | cons c t ih =>
    cases hc : c.isControl with
    | true => simp [hc, CodePoint.columns_of_isControl hc, ih]
    | false => simp [hc, ih]

theorem mem_of_mem_measured {c : CodePoint} (h : c ∈ t.measured) : c ∈ t := by
  fun_induction measured t with
  | case1 => cases h
  | case2 => cases h
  | case3 d t ih => exact List.mem_cons_of_mem _ (List.mem_cons_of_mem _ (ih h))
  | case4 e t hne ih =>
    rcases List.mem_cons.mp h with rfl | h
    · exact List.mem_cons_self
    · exact List.mem_cons_of_mem _ (ih h)

theorem hasOpenControl_printable (t : Text) : t.printable.hasOpenControl = false := by
  rw [hasOpenControl, List.any_eq_false]
  intro c hc
  have hprintable := (List.mem_filter.mp (mem_of_mem_measured hc)).2
  simpa using hprintable

theorem hiddenColumns_of_not_mem (hjoiner : CodePoint.joiner ∉ t) : t.hiddenColumns = 0 := by
  rw [hiddenColumns]
  induction t with
  | nil => rfl
  | cons c t ih =>
    rw [List.mem_cons, not_or] at hjoiner
    rw [hidden_cons_of_ne (Ne.symm hjoiner.1), ih hjoiner.2]

theorem widenedAfter_of_not_mem (last : Option CodePoint) (hselector : CodePoint.selector ∉ t) :
    widenedAfter last t = 0 := by
  induction t generalizing last with
  | nil => rfl
  | cons c t ih =>
    rw [List.mem_cons, not_or] at hselector
    have hc : ¬ (c = CodePoint.selector && last.isSome) = true := by
      simp [Ne.symm hselector.1]
    rw [widenedAfter, if_neg hc, ih _ hselector.2]

theorem widenedColumns_of_not_mem (hselector : CodePoint.selector ∉ t) : t.widenedColumns = 0 :=
  widenedAfter_of_not_mem none fun h => hselector (mem_of_mem_measured h)

theorem width_of_not_mem (hjoiner : CodePoint.joiner ∉ t) (hselector : CodePoint.selector ∉ t) :
    t.width = total (t.map CodePoint.columns) := by
  cases hopen : t.hasOpenControl with
  | true => exact width_of_hasOpenControl hopen
  | false =>
    have hwidth := width_add_hiddenColumns hopen
    rw [hiddenColumns_of_not_mem hjoiner, widenedColumns_of_not_mem hselector] at hwidth
    exact hwidth

/--
For every text and its printable characters, all but the control characters: where a control
character is measured, the text is as wide as these characters are by themselves, while among
themselves joiners may hide some of them and U+FE0F may widen some. So the text is as wide as its
printable characters exactly if these two make up for each other, or if they do as much in the
text where no control character is measured. In particular it is without joiners and U+FE0F.
-/
theorem width_printable_iff (t : Text) :
    let p := t.printable
    (t.hasOpenControl = true → t.width = total (p.map CodePoint.columns)) ∧
      p.width + p.hiddenColumns = total (p.map CodePoint.columns) + p.widenedColumns ∧
      (t.width = p.width ↔
        if t.hasOpenControl then p.hiddenColumns = p.widenedColumns
        else t.hiddenColumns + p.widenedColumns = p.hiddenColumns + t.widenedColumns) ∧
      (CodePoint.joiner ∉ t → CodePoint.selector ∉ t → t.width = p.width) := by
  intro p
  have hsame : total (p.map CodePoint.columns) = total (t.map CodePoint.columns) :=
    total_columns_printable t
  have hprintable : p.width + p.hiddenColumns =
      total (p.map CodePoint.columns) + p.widenedColumns :=
    width_add_hiddenColumns (hasOpenControl_printable t)
  refine ⟨fun hopen => ?_, hprintable, ?_, fun hjoiner hselector => ?_⟩
  · rw [hsame, width_of_hasOpenControl hopen]
  · cases hopen : t.hasOpenControl with
    | true =>
      have hwidth := width_of_hasOpenControl hopen
      simp only [if_true]
      omega
    | false =>
      have hwidth := width_add_hiddenColumns hopen
      simp only [Bool.false_eq_true, if_false]
      omega
  · have hkept : ∀ c ∈ p, c ∈ t := fun c hc => (List.mem_filter.mp hc).1
    rw [width_of_not_mem hjoiner hselector, ← hsame]
    exact (width_of_not_mem (fun h => hjoiner (hkept _ h)) fun h => hselector (hkept _ h)).symm

/-- A tab beside a wide character and an accent. -/
theorem width_printable_iff_tab :
    let t : Text := "\t日e\u0301\x07"
    (CodePoint.joiner ∉ t ∧ CodePoint.selector ∉ t) ∧ t.hasOpenControl = true ∧
      t.width = t.printable.width ∧ t.width = 3 := by
  intro t
  have hjoiner : CodePoint.joiner ∉ t := by decide
  have hselector : CodePoint.selector ∉ t := by decide
  exact ⟨⟨hjoiner, hselector⟩, by decide, (width_printable_iff t).2.2.2 hjoiner hselector,
    by decide +kernel⟩

/-- With a tab after it, a character that a joiner hides counts. -/
theorem not_forall_width_printable : ¬ ∀ t : Text, t.width = t.printable.width := by
  intro h
  exact absurd (h ['a', CodePoint.joiner, 'b', '\t']) (by decide +kernel)

end Text

end ShellPrompt
