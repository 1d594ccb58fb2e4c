import Mathlib.Data.List.TakeWhile
import ShellPrompt.TerminalWidth
/-!
Where the width of the terminal comes from. One source decides: what the user asks for, else a
`COLUMNS` that is not empty, else the integer that the terminal answers, else eighty columns. The
width is then the positive integer that this source gives. Main statement: what is settled for each
of them, and that without a setting of the user's only a terminal that answers with an integer
which is not positive leaves no width (`resolve_decided`).
-/

set_option autoImplicit false

namespace ShellPrompt

namespace Text

variable {c d : CodePoint} {t field : Text} {more : List Text}

/-- A field that stands before this text ends there. -/
def EndsField (t : Text) : Prop :=
  ∀ c ∈ t.head?, c.isFieldBreak = true

/-- One or more characters, none of them a field break. -/
structure IsField (t : Text) : Prop where
  ne_nil : t ≠ []
  unbroken : ∀ c ∈ t, c.isFieldBreak = false

theorem fields_cons_break (hc : c.isFieldBreak = true) (t : Text) :
    fields (c :: t) = fields t := by
  rw [fields.eq_def]
  simp only [hc, if_true]

theorem fields_cons_last (hc : c.isFieldBreak = false) (ht : EndsField t) :
    fields (c :: t) = [c] :: fields t := by
  rw [fields.eq_def]
  simp only [hc, Bool.false_eq_true, if_false]
  cases t with
  | nil => rfl
  | cons d t =>
    have hd : d.isFieldBreak = true := ht d rfl
    cases fields (d :: t) with
    | nil => rfl
    | cons next more => simp only [hd, if_true]

theorem fields_cons_more (hc : c.isFieldBreak = false) (hd : d.isFieldBreak = false)
    (h : fields (d :: t) = field :: more) : fields (c :: d :: t) = (c :: field) :: more := by
  rw [fields.eq_def]
  simp only [hc, h, hd, Bool.false_eq_true, if_false]

theorem fields_breaks_append {breaks : Text} (h : ∀ c ∈ breaks, c.isFieldBreak = true) (t : Text) :
    fields (breaks ++ t) = fields t := by
  induction breaks with
  | nil => rfl
  | cons c breaks ih =>
    obtain ⟨hc, hbreaks⟩ := List.forall_mem_cons.mp h
    rw [List.cons_append, fields_cons_break hc, ih hbreaks]

theorem fields_field_append (hfield : IsField field) (ht : EndsField t) :
    fields (field ++ t) = field :: fields t := by
  obtain ⟨hne, hunbroken⟩ := hfield
  induction field with
  | nil => exact absurd rfl hne
  | cons c field ih =>
    obtain ⟨hc, hfield⟩ := List.forall_mem_cons.mp hunbroken
    cases field with
    | nil => exact fields_cons_last hc ht
    | cons d field =>
      have hd : d.isFieldBreak = false := hfield d List.mem_cons_self
      exact fields_cons_more hc hd (ih (List.cons_ne_nil d field) hfield)

theorem exists_breaks_append (t : Text) :
    ∃ breaks rest, t = breaks ++ rest ∧ (∀ c ∈ breaks, c.isFieldBreak = true) ∧
      (rest = [] ∨ ∃ field after, rest = field ++ after ∧ IsField field ∧ EndsField after) := by
  refine ⟨t.takeWhile CodePoint.isFieldBreak, t.dropWhile CodePoint.isFieldBreak,
    List.takeWhile_append_dropWhile.symm, fun c hc => List.mem_takeWhile_imp hc, ?_⟩
  cases hrest : t.dropWhile CodePoint.isFieldBreak with
  | nil => exact Or.inl rfl
  | cons c rest =>
    have hc : c.isFieldBreak = false := by
      have hhead := List.head?_dropWhile_not CodePoint.isFieldBreak t
      rw [hrest] at hhead
      simpa using hhead
    refine Or.inr ⟨(c :: rest).takeWhile fun c => !c.isFieldBreak,
      (c :: rest).dropWhile fun c => !c.isFieldBreak, List.takeWhile_append_dropWhile.symm,
      ⟨?_, ?_⟩, ?_⟩
    · simp [hc]
    · intro d hd
      simpa using List.mem_takeWhile_imp hd
    · intro d hd
      have hhead := List.head?_dropWhile_not (fun c : CodePoint => !c.isFieldBreak) (c :: rest)
      rw [Option.mem_def.mp hd] at hhead
      simpa using hhead

/-- This field is the second of a line. -/
def IsSecondField (line field : Text) : Prop :=
  ∃ before first gap after, line = before ++ (first ++ (gap ++ (field ++ after))) ∧
    (∀ c ∈ before, c.isFieldBreak = true) ∧ IsField first ∧
    gap ≠ [] ∧ (∀ c ∈ gap, c.isFieldBreak = true) ∧ IsField field ∧ EndsField after

theorem second_field_iff {line : Text} :
    line.fields[1]? = some field ↔ IsSecondField line field := by
  constructor
  · intro h
    obtain ⟨before, rest, rfl, hbefore, hrest⟩ := exists_breaks_append line
    rw [fields_breaks_append hbefore] at h
    rcases hrest with rfl | ⟨first, rest, rfl, hfirst, hends⟩
    · cases h
    rw [fields_field_append hfirst hends] at h
    obtain ⟨gap, rest, rfl, hgap, hrest⟩ := exists_breaks_append rest
    rw [fields_breaks_append hgap] at h
    rcases hrest with rfl | ⟨second, after, rfl, hsecond, hafter⟩
    · cases h
    rw [fields_field_append hsecond hafter] at h
    cases h
    refine ⟨before, first, gap, after, rfl, hbefore, hfirst, ?_, hgap, hsecond, hafter⟩
    -- without a gap the first field would go on
    rintro rfl
    obtain ⟨c, field, hfield⟩ := List.exists_cons_of_ne_nil hsecond.ne_nil
    have hc := hends c (by simp [hfield])
    rw [hsecond.unbroken c (by simp [hfield])] at hc
    cases hc
  · rintro ⟨before, first, gap, after, rfl, hbefore, hfirst, hne, hgap, hfield, hafter⟩
    have hends : EndsField (gap ++ (field ++ after)) := by
      intro c hc
      obtain ⟨d, gap, rfl⟩ := List.exists_cons_of_ne_nil hne
      cases hc
      exact hgap c List.mem_cons_self
    rw [fields_breaks_append hbefore, fields_field_append hfirst hends, fields_breaks_append hgap,
      fields_field_append hfield hafter]
    rfl

end Text

namespace Setting

def value? : Setting → Option Int
  | absent => none
  | number value => some value
  | written text => text.integer?

theorem integer?_of_value {setting : Setting} {n : Int} (h : setting.value? = some n)
    (description : Text) : setting.integer? description = .ok (some n) := by
  cases setting with
  | absent => cases h
  | number value =>
    cases h
    rfl
  | written text =>
    rw [value?] at h
    rw [integer?, h]

theorem exists_written_of_no_value {setting : Setting} (hgiven : setting ≠ .absent)
    (h : setting.value? = none) : ∃ text, setting = .written text ∧ text.integer? = none := by
  cases setting with
  | absent => exact absurd rfl hgiven
  | number value => cases h
  | written text => exact ⟨text, rfl, h⟩

end Setting

namespace TerminalWidth

inductive Source where
  | asked | columns | terminal | fallback
deriving DecidableEq

/-- The second field of the terminal's answer is an integer in ASCII. -/
def Answers (answer : Text) (n : Int) : Prop :=
  ∃ field, Text.IsSecondField answer field ∧ (∀ c ∈ field, c.val < 0x80) ∧ field.integer? = some n

/-- A variable that is not set, or set to nothing. -/
def IsUnset (columns : Option Text) : Prop :=
  columns = none ∨ columns = some []

/-- The source that decides, and what it says. -/
inductive Decides (asked : Setting) (columns : Option Text) (answer : Text) :
    Source → Setting → Prop where
  | asked (hasked : asked ≠ .absent) : Decides asked columns answer .asked asked
  | columns {text : Text} (hasked : asked = .absent) (hcolumns : columns = some text)
      (htext : text ≠ []) : Decides asked columns answer .columns (.written text)
  | terminal {n : Int} (hasked : asked = .absent) (hcolumns : IsUnset columns)
      (hanswer : Answers answer n) : Decides asked columns answer .terminal (.number n)
  | fallback (hasked : asked = .absent) (hcolumns : IsUnset columns)
      (hanswer : ∀ n, ¬ Answers answer n) :
      Decides asked columns answer .fallback (.number fallback)

/-- What is reported of a source that gives no width. -/
inductive Refuses : Source → Setting → ConfigurationError → Prop where
  | asked {text : Text} (h : text.integer? = none) :
      Refuses .asked (.written text) (.notAnInteger "Width" text)
  | columns {text : Text} (h : text.integer? = none) :
      Refuses .columns (.written text) (.notAnInteger "COLUMNS" text)
  | notPositive {source : Source} {setting : Setting} {n : Int} (h : setting.value? = some n)
      (hn : n ≤ 0) : Refuses source setting (.widthNotPositive n)

variable {asked setting : Setting} {columns : Option Text} {answer : Text} {source : Source}

theorem answered?_eq_some_iff {n : Int} : answered? answer = some n ↔ Answers answer n := by
  have hanswers : Answers answer n ↔ ∃ field, answer.fields[1]? = some field ∧
      (∀ c ∈ field, c.val < 0x80) ∧ field.integer? = some n := by
    simp only [Answers, Text.second_field_iff]
  rw [hanswers, answered?]
  cases answer.fields[1]? with
  | none => simp
  | some field => simp

theorem answered?_eq_none_iff : answered? answer = none ↔ ∀ n, ¬ Answers answer n := by
  rw [Option.eq_none_iff_forall_ne_some]
  exact forall_congr' fun n => not_congr answered?_eq_some_iff

theorem exists_decides (asked : Setting) (columns : Option Text) (answer : Text) :
    ∃ source setting, Decides asked columns answer source setting := by
  by_cases hasked : asked = .absent
  · have hunset (hcolumns : IsUnset columns) :
        ∃ source setting, Decides asked columns answer source setting := by
      cases hanswered : answered? answer with
      | none => exact ⟨_, _, .fallback hasked hcolumns (answered?_eq_none_iff.mp hanswered)⟩
      | some n => exact ⟨_, _, .terminal hasked hcolumns (answered?_eq_some_iff.mp hanswered)⟩
    match columns with
    | none => exact hunset (Or.inl rfl)
    | some [] => exact hunset (Or.inr rfl)
    | some (c :: text) => exact ⟨_, _, .columns hasked rfl (List.cons_ne_nil c text)⟩
  · exact ⟨_, _, .asked hasked⟩

def positive (n : Int) : Except ConfigurationError Int :=
  if n ≤ 0 then .error (.widthNotPositive n) else .ok n

theorem positive_eq_ok_iff {n width : Int} : positive n = .ok width ↔ n = width ∧ 0 < n := by
  rw [positive]
  split <;> simp <;> omega

theorem positive_eq_error_iff {n : Int} {error : ConfigurationError} :
    positive n = .error error ↔ n ≤ 0 ∧ error = .widthNotPositive n := by
  rw [positive]
  split <;> simp [*, eq_comm]

theorem refuses_iff_of_value {n : Int} (hvalue : setting.value? = some n)
    {error : ConfigurationError} :
    Refuses source setting error ↔ n ≤ 0 ∧ error = .widthNotPositive n := by
  constructor
  · intro h
    cases h with
    | asked htext | columns htext =>
      rw [Setting.value?, htext] at hvalue
      cases hvalue
    | notPositive hother hn =>
      cases hother.symm.trans hvalue
      exact ⟨hn, rfl⟩
  · rintro ⟨hn, rfl⟩
    exact .notPositive hvalue hn

theorem Refuses.unique {error other : ConfigurationError} (h : Refuses source setting error)
    (hother : Refuses source setting other) : error = other := by
  cases hvalue : setting.value? with
  | some n =>
    rw [((refuses_iff_of_value hvalue).mp h).2, ((refuses_iff_of_value hvalue).mp hother).2]
  | none =>
    cases h with
    | asked =>
      cases hother with
      | asked => rfl
      | notPositive hn => cases hn.symm.trans hvalue
    | columns =>
      cases hother with
      | columns => rfl
      | notPositive hn => cases hn.symm.trans hvalue
    | notPositive hn => cases hn.symm.trans hvalue

theorem resolve_eq (asked : Setting) (columns : Option Text) (answer : Text) :
    resolve asked columns answer =
      match asked.integer? "Width" with
      | .error error => .error error
      | .ok (some n) => positive n
      | .ok none =>
        match (Setting.ofText? (columns.filter fun t => !t.isEmpty)).integer? "COLUMNS" with
        | .error error => .error error
        | .ok width => positive ((width.or (answered? answer)).getD fallback) := by
  rw [resolve]
  cases asked.integer? "Width" with
  | error error => rfl
  | ok width =>
    cases width with
    | some n => rfl
    | none =>
      cases (Setting.ofText? (columns.filter fun t => !t.isEmpty)).integer? "COLUMNS" with
      | error error => rfl
      | ok width => rfl

theorem ofText?_of_isUnset (h : IsUnset columns) :
    Setting.ofText? (columns.filter fun t => !t.isEmpty) = .absent := by
  rcases h with rfl | rfl <;> rfl

theorem ofText?_of_ne_nil {text : Text} (h : text ≠ []) :
    Setting.ofText? ((some text).filter fun t => !t.isEmpty) = .written text := by
  obtain ⟨c, text, rfl⟩ := List.exists_cons_of_ne_nil h
  rfl

theorem resolve_of_value (h : Decides asked columns answer source setting) {n : Int}
    (hvalue : setting.value? = some n) : resolve asked columns answer = positive n := by
  cases h with
  | asked hasked => rw [resolve_eq, Setting.integer?_of_value hvalue]
  | columns hasked hcolumns htext =>
    rw [resolve_eq, hasked, hcolumns, ofText?_of_ne_nil htext, Setting.integer?_of_value hvalue]
    rfl
  | terminal hasked hcolumns hanswer =>
    cases hvalue
    rw [resolve_eq, hasked, ofText?_of_isUnset hcolumns, answered?_eq_some_iff.mpr hanswer]
    rfl
  | fallback hasked hcolumns hanswer =>
    cases hvalue
    rw [resolve_eq, hasked, ofText?_of_isUnset hcolumns, answered?_eq_none_iff.mpr hanswer]
    rfl

theorem resolve_of_no_value (h : Decides asked columns answer source setting)
    (hvalue : setting.value? = none) :
    ∃ error, Refuses source setting error ∧ resolve asked columns answer = .error error := by
  cases h with
  | asked hasked =>
    obtain ⟨text, rfl, htext⟩ := Setting.exists_written_of_no_value hasked hvalue
    refine ⟨_, .asked htext, ?_⟩
    rw [resolve_eq, Setting.integer?, htext]
  | columns hasked hcolumns hne =>
    refine ⟨_, .columns hvalue, ?_⟩
    rw [resolve_eq, hasked, hcolumns, ofText?_of_ne_nil hne]
    simp only [Setting.integer?, show Text.integer? _ = none from hvalue]
  | terminal => cases hvalue
  | fallback => cases hvalue

theorem resolve_eq_ok_iff (h : Decides asked columns answer source setting) {width : Int} :
    resolve asked columns answer = .ok width ↔ setting.value? = some width ∧ 0 < width := by
  cases hvalue : setting.value? with
  | some n =>
    rw [resolve_of_value h hvalue, positive_eq_ok_iff, Option.some.injEq]
    exact and_congr_right fun heq => by rw [heq]
  | none =>
    obtain ⟨error, -, hresolve⟩ := resolve_of_no_value h hvalue
    simp [hresolve]

theorem resolve_eq_error_iff (h : Decides asked columns answer source setting)
    {error : ConfigurationError} :
    resolve asked columns answer = .error error ↔ Refuses source setting error := by
  cases hvalue : setting.value? with
  | some n => rw [resolve_of_value h hvalue, positive_eq_error_iff, refuses_iff_of_value hvalue]
  | none =>
    obtain ⟨found, hrefuses, hresolve⟩ := resolve_of_no_value h hvalue
    rw [hresolve]
    constructor
    · intro herror
      cases herror
      exact hrefuses
    · intro herror
      rw [hrefuses.unique herror]

theorem exists_error_iff_of_absent (hcolumns : IsUnset columns) :
    (∃ error, resolve .absent columns answer = .error error) ↔ ∃ n, Answers answer n ∧ n ≤ 0 := by
  cases hanswered : answered? answer with
  | none =>
    have hanswer := answered?_eq_none_iff.mp hanswered
    have hresolve : resolve .absent columns answer = .ok fallback :=
      (resolve_eq_ok_iff (.fallback rfl hcolumns hanswer)).mpr ⟨rfl, by decide⟩
    simp [hresolve, hanswer]
  | some n =>
    have hanswer := answered?_eq_some_iff.mp hanswered
    have hdecides : Decides .absent columns answer .terminal (.number n) :=
      .terminal rfl hcolumns hanswer
    have hvalue : (Setting.number n).value? = some n := rfl
    constructor
    · rintro ⟨error, herror⟩
      rw [resolve_eq_error_iff hdecides, refuses_iff_of_value hvalue] at herror
      exact ⟨n, hanswer, herror.1⟩
    · rintro ⟨other, hother, hn⟩
      cases hanswered.symm.trans (answered?_eq_some_iff.mpr hother)
      exact ⟨_, (resolve_eq_error_iff hdecides).mpr (.notPositive hvalue hn)⟩

/--
For every width that is asked for or left out, every value of `COLUMNS` and every answer of the
terminal, one source decides. The width is settled exactly if this source gives a positive integer,
and is that integer; else what is wrong with the source is reported. Without a width that is asked
for and with `COLUMNS` unset or empty, a report is made exactly if the second field of the answer is
an integer that is not positive.
-/
theorem resolve_decided (asked : Setting) (columns : Option Text) (answer : Text) :
    ∃ source setting, Decides asked columns answer source setting ∧
      (∀ width, resolve asked columns answer = .ok width ↔
        setting.value? = some width ∧ 0 < width) ∧
      (∀ error, resolve asked columns answer = .error error ↔ Refuses source setting error) ∧
      (asked = .absent → IsUnset columns →
        ((∃ error, resolve asked columns answer = .error error) ↔
          ∃ n, Answers answer n ∧ n ≤ 0)) := by
  obtain ⟨source, setting, hdecides⟩ := exists_decides asked columns answer
  refine ⟨source, setting, hdecides, fun width => resolve_eq_ok_iff hdecides,
    fun error => resolve_eq_error_iff hdecides, ?_⟩
  rintro rfl hcolumns
  exact exists_error_iff_of_absent hcolumns

/-- An empty variable says nothing, and the second number of the answer is the width. -/
theorem resolve_decided_terminal :
    (Setting.absent = .absent ∧ IsUnset (some [])) ∧
      (¬ ∃ error, resolve .absent (some []) "24 132\n" = .error error) ∧
      resolve .absent (some []) "24 132\n" = .ok 132 := by
  have hcolumns : IsUnset (some []) := Or.inr rfl
  obtain ⟨source, setting, -, -, -, hreport⟩ := resolve_decided .absent (some []) "24 132\n"
  refine ⟨⟨rfl, hcolumns⟩, ?_, by decide +kernel⟩
  rw [hreport rfl hcolumns]
  rintro ⟨n, hanswer, hn⟩
  have hanswered : answered? "24 132\n" = some 132 := by decide +kernel
  cases hanswered.symm.trans (answered?_eq_some_iff.mpr hanswer)
  exact absurd hn (by decide)

/-- A terminal that does not know its size answers with zeros. -/
theorem not_forall_resolve_answer :
    ¬ ∀ (columns : Option Text) (answer : Text), IsUnset columns →
      ∃ width, resolve .absent columns answer = .ok width := by
  intro h
  obtain ⟨width, hwidth⟩ := h none "0 0\n" (Or.inl rfl)
  have hreport : resolve .absent none "0 0\n" = .error (.widthNotPositive 0) := by decide +kernel
  rw [hreport] at hwidth
  cases hwidth

end TerminalWidth

end ShellPrompt
