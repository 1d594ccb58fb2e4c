import ShellPrompt.Color.Terminal
import ShellPrompt.Proofs.Text.Splitting
/-!
Writing orders as escape sequences and reading them back. Codes are parted by semicolons, and the
code of a mixed color holds semicolons of its own; a terminal still reads from the text of a
sequence exactly the orders that it was written from (`ofSequence?_escapeSequence`).
-/

set_option autoImplicit false

namespace ShellPrompt

namespace Order

def code : Order → Text
  | reset => Style.resetCode
  | bold => Style.boldCode
  | italic => Style.italicCode
  | color ground c => c.code ground

/-- The number that selects a kind of color for a side: 30 and 40 are the first basic colors. -/
def groundNumber : Ground → Nat
  | .foreground => 30
  | .background => 40

def numbers : Order → List Nat
  | reset => [0]
  | bold => [1]
  | italic => [3]
  | color ground .default => [groundNumber ground + 9]
  | color ground (.basic c) => [groundNumber ground + c.number]
  | color ground (.rgb c) => (groundNumber ground + 8) :: 2 :: c.components

theorem numbers_ne_nil (order : Order) : order.numbers ≠ [] := by
  cases order with
  | color ground c => cases c <;> simp [numbers]
  | _ => simp [numbers]

theorem code_eq_join (order : Order) :
    order.code = Text.join [';'] (order.numbers.map Text.decimal) := by
  cases order with
  | reset => decide
  | bold => decide
  | italic => decide
  | color ground c =>
    cases c with
    | default => cases ground <;> decide
    | basic c => cases ground <;> cases c <;> decide
    | rgb c =>
      have h38 : Text.decimal 38 = (['3', '8'] : Text) := by decide
      have h48 : Text.decimal 48 = (['4', '8'] : Text) := by decide
      have h2 : Text.decimal 2 = (['2'] : Text) := by decide
      cases ground <;>
        simp [code, Color.code, numbers, groundNumber, Ground.digit, Text.join, Text.ofString,
          Rgb.components, h38, h48, h2]

theorem digit_bounds {n : Nat} {c : CodePoint} (h : c ∈ Text.decimal n) :
    0x30 ≤ c.val ∧ c.val ≤ 0x39 := by
  obtain ⟨d, hd, rfl⟩ := List.mem_map.mp h
  have hdigit := Nat.isDigit_of_mem_toDigits (by decide) (by decide) hd
  simp only [Char.isDigit, Bool.and_eq_true, decide_eq_true_eq, ge_iff_le, UInt32.le_iff_toNat_le]
    at hdigit
  exact hdigit

theorem semicolon_not_mem_decimal (n : Nat) : CodePoint.ofChar ';' ∉ Text.decimal n := by
  intro h
  have := digit_bounds h
  have hval : (CodePoint.ofChar ';').val = 0x3B := rfl
  omega

theorem number?_decimal (n : Nat) : number? (Text.decimal n) = some n := by
  have hnonempty : (Text.decimal n).isEmpty = false := by
    simp [Text.decimal, Nat.toDigits_ne_nil]
  have hdigits : (Text.decimal n).any (fun c => c.val < 0x30 || 0x39 < c.val) = false := by
    rw [List.any_eq_false]
    intro c hc
    have := digit_bounds hc
    simp
    omega
  have hvalue : (Text.decimal n).foldl (fun n c => 10 * n + (c.val - 0x30)) 0 = n := by
    have := Nat.ofDigitChars_ten_toDigits (n := n)
    rw [Nat.ofDigitChars_eq_foldl] at this
    rw [Text.decimal, List.foldl_map]
    exact this
  rw [number?, hnonempty, hdigits, hvalue]
  rfl

theorem mapM_number?_decimal (numbers : List Nat) :
    (numbers.map Text.decimal).mapM number? = some numbers := by
  induction numbers with
  | nil => rfl
  | cons n numbers ih => simp [List.mapM_cons, number?_decimal, ih]

theorem ofComponents?_components (c : Rgb) :
    Rgb.ofComponents? c.red.val c.green.val c.blue.val = some c := by
  rw [Rgb.ofComponents?, dif_pos (by omega)]
  simp

theorem ofNumbers?_cons_of_single {n : Nat} {order : Order} (h : single? n = some order)
    (rest : List Nat) : ofNumbers? (n :: rest) = (ofNumbers? rest).map (order :: ·) := by
  rw [ofNumbers?.eq_def]
  simp only [h]

theorem ofNumbers?_cons_of_mixed {n kind red green blue : Nat} {order : Order}
    (hsingle : single? n = none) (h : mixed? n kind red green blue = some order)
    (rest : List Nat) :
    ofNumbers? (n :: kind :: red :: green :: blue :: rest) =
      (ofNumbers? rest).map (order :: ·) := by
  rw [ofNumbers?.eq_def]
  simp only [hsingle, h]

theorem mixed?_components (ground : Ground) (c : Rgb) :
    mixed? (groundNumber ground + 8) 2 c.red.val c.green.val c.blue.val =
      some (color ground (.rgb c)) := by
  cases ground <;> simp [mixed?, groundNumber, ofComponents?_components]

theorem ofNumbers?_numbers_append (order : Order) (rest : List Nat) :
    ofNumbers? (order.numbers ++ rest) = (ofNumbers? rest).map (order :: ·) := by
  cases order with
  | color ground c =>
    cases c with
    | default => cases ground <;> exact ofNumbers?_cons_of_single rfl rest
    | basic c => cases ground <;> cases c <;> exact ofNumbers?_cons_of_single rfl rest
    | rgb c =>
      have hsingle : single? (groundNumber ground + 8) = none := by cases ground <;> rfl
      exact ofNumbers?_cons_of_mixed hsingle (mixed?_components ground c) rest
  | _ => exact ofNumbers?_cons_of_single rfl rest

theorem ofNumbers?_flatMap_numbers (orders : List Order) :
    ofNumbers? (orders.flatMap numbers) = some orders := by
  induction orders with
  | nil => rfl
  | cons order orders ih => simp [ofNumbers?_numbers_append, ih]

theorem splitAt_code (order : Order) :
    Text.splitAt ';' order.code = order.numbers.map Text.decimal := by
  rw [code_eq_join, Text.splitAt_join _ (by simp [numbers_ne_nil]), List.flatMap_map]
  simp only [Text.splitAt_of_not_mem (semicolon_not_mem_decimal _)]
  exact List.map_eq_flatMap.symm

/-- A terminal reads from a sequence the orders that it was written from. -/
theorem ofSequence?_escapeSequence {orders : List Order} (h : orders ≠ []) :
    ofSequence? (escapeSequence (orders.map code)) = some orders := by
  have hsplit : Text.splitAt ';' (Text.join [';'] (orders.map code)) =
      (orders.flatMap numbers).map Text.decimal := by
    rw [Text.splitAt_join _ (by simp [h]), List.flatMap_map, List.map_flatMap]
    simp only [splitAt_code]
  have hdrop : Text.dropHead? ['\x1b', '['] (escapeSequence (orders.map code)) =
      some (Text.join [';'] (orders.map code) ++ ([CodePoint.ofChar 'm'] : Text)) := by
    simp [Text.dropHead?, escapeSequence]
  rw [ofSequence?, hdrop]
  simp only [List.getLast?_concat, List.dropLast_concat, if_true, hsplit, mapM_number?_decimal,
    Option.bind_some, ofNumbers?_flatMap_numbers]

theorem mem_code {order : Order} {c : CodePoint} (h : c ∈ order.code) :
    c = CodePoint.ofChar ';' ∨ (0x30 ≤ c.val ∧ c.val ≤ 0x39) := by
  rw [code_eq_join] at h
  rcases Text.mem_join h with h | ⟨part, hpart, hc⟩
  · exact Or.inl (List.mem_singleton.mp h)
  · obtain ⟨n, _, rfl⟩ := List.mem_map.mp hpart
    exact Or.inr (digit_bounds hc)

theorem mem_escapeSequence {orders : List Order} {c : CodePoint}
    (h : c ∈ escapeSequence (orders.map code)) :
    c ∈ (['\x1b', '[', ';', 'm'] : Text) ∨ (0x30 ≤ c.val ∧ c.val ≤ 0x39) := by
  rw [escapeSequence, List.mem_append, List.mem_append] at h
  rcases h with (h | h) | h
  · left
    simp only [List.mem_cons, List.not_mem_nil, or_false] at h ⊢
    rcases h with h | h <;> simp [h]
  · rcases Text.mem_join h with h | ⟨part, hpart, hc⟩
    · left
      simp only [List.mem_cons, List.not_mem_nil, or_false] at h ⊢
      simp [h]
    · obtain ⟨order, _, rfl⟩ := List.mem_map.mp hpart
      rcases mem_code hc with hc | hc
      · left
        simp [hc]
      · exact Or.inr hc
  · left
    simp only [List.mem_cons, List.not_mem_nil, or_false] at h ⊢
    simp [h]

end Order

end ShellPrompt
