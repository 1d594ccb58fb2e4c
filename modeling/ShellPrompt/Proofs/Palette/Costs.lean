import Mathlib.Algebra.Order.Field.Rat
import Mathlib.Data.Nat.Cast.Order.Field
import ShellPrompt.Proofs.Palette.Choice
/-!
What the pick weighs. The weights are halved exactly for as far as the pick looks back, so they
leave nothing out, and all older entries together weigh less than one neighbor more recent than
they. Main statements: the pick is the one entry of least exact cost that comes first
(`pick_is_best`); the most recent entry at which two costs differ decides
(`recent_neighbors_dominate`).
-/

set_option autoImplicit false

namespace ShellPrompt

namespace Palette

theorem penalty_le (a b : Int) : penalty a b ≤ 4 := by
  rw [penalty]
  split
  · split
    · exact Nat.le_refl 4
    · split <;> decide
  · decide

/-- The pairs of entries that look alike: first the neighbors, and then those two apart. -/
def alike : List (Text × Text × Nat) :=
  [("red", "orange", 4), ("orange", "amber", 4), ("amber", "lime", 4), ("lime", "green", 4),
   ("green", "teal", 4), ("teal", "cyan", 4), ("cyan", "azure", 4), ("azure", "blue", 4),
   ("blue", "violet", 4), ("violet", "purple", 4), ("purple", "magenta", 4),
   ("magenta", "rose", 4), ("rose", "red", 4),
   ("red", "amber", 1), ("orange", "lime", 1), ("amber", "green", 1), ("lime", "teal", 1),
   ("green", "cyan", 1), ("teal", "azure", 1), ("cyan", "blue", 1), ("azure", "violet", 1),
   ("blue", "purple", 1), ("violet", "magenta", 1), ("purple", "rose", 1), ("magenta", "red", 1),
   ("rose", "orange", 1)]

def weightOf? (a b : Int) : Option Nat :=
  alike.findSome? fun (first, second, weight) =>
    let ends := ((indexOf? first).map Int.ofNat, (indexOf? second).map Int.ofNat)
    if ends = (some a, some b) ∨ ends = (some b, some a) then some weight else none

theorem lt_size_of_indexOf?_eq {name : Text} {a : Int}
    (h : (indexOf? name).map Int.ofNat = some a) : 0 ≤ a ∧ a < size := by
  obtain ⟨index, hindex, rfl⟩ := Option.map_eq_some_iff.mp h
  have hlength := (List.findIdx?_eq_some_iff_getElem.mp hindex).1
  exact ⟨Int.natCast_nonneg index, Int.ofNat_lt.mpr hlength⟩

theorem weightOf?_eq_none {a b : Int}
    (h : ¬ (0 ≤ a ∧ a < size) ∨ ¬ (0 ≤ b ∧ b < size)) : weightOf? a b = none := by
  rw [weightOf?, List.findSome?_eq_none_iff]
  rintro ⟨first, second, weight⟩ -
  refine if_neg ?_
  rintro (hends | hends)
  all_goals
    obtain ⟨hfirst, hsecond⟩ := Prod.mk.inj hends
    have hfirst := lt_size_of_indexOf?_eq hfirst
    have hsecond := lt_size_of_indexOf?_eq hsecond
    omega

theorem penalty_eq_zero {a b : Int}
    (h : ¬ (0 ≤ a ∧ a < size) ∨ ¬ (0 ≤ b ∧ b < size)) : penalty a b = 0 := by
  have hoff : ∀ {index : Int}, ¬ (0 ≤ index ∧ index < size) → onWheel? index = none := by
    intro index hindex
    refine if_neg ?_
    simp only [wheelSize, size] at hindex ⊢
    omega
  rw [penalty]
  rcases h with h | h
  · rw [hoff h]
  · rw [hoff h]
    cases onWheel? a <;> rfl

/-- The distance on the wheel says of all entries how alike they are. -/
theorem penalty_eq_weightOf? (a b : Int) : penalty a b = (weightOf? a b).getD 0 := by
  by_cases hinside : (0 ≤ a ∧ a < size) ∧ (0 ≤ b ∧ b < size)
  · obtain ⟨⟨ha, hasize⟩, hb, hbsize⟩ := hinside
    obtain ⟨i, rfl⟩ := Int.eq_ofNat_of_zero_le ha
    obtain ⟨j, rfl⟩ := Int.eq_ofNat_of_zero_le hb
    have hall : ∀ i j : Fin size, penalty i j = (weightOf? i j).getD 0 := by decide +kernel
    exact hall ⟨i, Int.ofNat_lt.mp hasize⟩ ⟨j, Int.ofNat_lt.mp hbsize⟩
  · -- No pair has an entry off the wheel, and neither does the distance count one.
    have houtside := not_and_or.mp hinside
    rw [penalty_eq_zero houtside, weightOf?_eq_none houtside]
    rfl

/-- How much a penalty counts against an entry used so many steps before the most recent one. -/
def weight (age : Nat) : Nat :=
  recencyWeight >>> age

theorem weight_eq_double {age : Nat} (h : age + 1 ≤ historyLimit) :
    weight age = 2 * weight (age + 1) := by
  have hall : ∀ age : Fin historyLimit, weight age = 2 * weight (age + 1) := by decide
  exact hall ⟨age, Nat.lt_of_succ_le h⟩

theorem weight_pos {age : Nat} (h : age ≤ historyLimit) : 0 < weight age := by
  have hall : ∀ age : Fin (historyLimit + 1), 0 < weight age := by decide
  exact hall ⟨age, Nat.lt_succ_of_le h⟩

/-- The cost of the older part of a history, whose first entry is so many steps back. -/
def costFrom (candidate : Int) (age : Nat) (older : List Int) : Nat :=
  total (older.mapIdx fun i used => penalty candidate used * weight (age + i))

theorem cost_eq_costFrom (candidate : Int) (history : List Int) :
    cost candidate history = costFrom candidate 0 history := by
  simp only [cost, costFrom, weight, Nat.zero_add]

@[simp] theorem costFrom_nil (candidate : Int) (age : Nat) : costFrom candidate age [] = 0 := rfl

@[simp] theorem costFrom_cons (candidate : Int) (age : Nat) (used : Int) (older : List Int) :
    costFrom candidate age (used :: older) =
      penalty candidate used * weight age + costFrom candidate (age + 1) older := by
  have hage : ∀ i, age + 1 + i = age + (i + 1) := by omega
  simp only [costFrom, List.mapIdx_cons, total_cons, Nat.add_zero, hage]

theorem costFrom_append (candidate : Int) (age : Nat) (newer older : List Int) :
    costFrom candidate age (newer ++ older) =
      costFrom candidate age newer + costFrom candidate (age + newer.length) older := by
  induction newer generalizing age with
  | nil => simp
  | cons used newer ih =>
    rw [List.cons_append, costFrom_cons, costFrom_cons, ih, List.length_cons, Nat.add_assoc,
      Nat.add_assoc, Nat.add_comm 1]

theorem costFrom_congr {a b : Int} {history : List Int}
    (h : ∀ used ∈ history, penalty a used = penalty b used) (age : Nat) :
    costFrom a age history = costFrom b age history := by
  induction history generalizing age with
  | nil => rfl
  | cons used older ih =>
    obtain ⟨hused, holder⟩ := List.forall_mem_cons.mp h
    rw [costFrom_cons, costFrom_cons, hused, ih holder]

/-- However alike they look, all older entries together count less than one neighbor before them. -/
theorem costFrom_succ_lt (candidate : Int) (age : Nat) {older : List Int}
    (h : age + older.length ≤ historyLimit) :
    costFrom candidate (age + 1) older < 4 * weight age := by
  induction older generalizing age with
  | nil =>
    have hpositive := weight_pos (Nat.le_of_add_right_le h)
    rw [costFrom_nil]
    omega
  | cons used older ih =>
    rw [List.length_cons] at h
    have hnext : age + 1 + older.length ≤ historyLimit := by omega
    have hrest := ih (age + 1) hnext
    have hhalf := weight_eq_double (Nat.le_of_add_right_le hnext)
    have hused := Nat.mul_le_mul_right (weight (age + 1)) (penalty_le candidate used)
    rw [costFrom_cons]
    omega

theorem cost_lt_of_neighbor {a b : Int} {newer older : List Int} {used : Int}
    (hlength : (newer ++ used :: older).length ≤ historyLimit)
    (hsame : ∀ h ∈ newer, penalty a h = penalty b h) (ha : penalty a used = 4)
    (hb : penalty b used = 0) :
    cost b (newer ++ used :: older) < cost a (newer ++ used :: older) := by
  rw [List.length_append, List.length_cons] at hlength
  have holder : newer.length + older.length ≤ historyLimit := by omega
  have htail := costFrom_succ_lt b newer.length holder
  rw [cost_eq_costFrom, cost_eq_costFrom, costFrom_append, costFrom_append, costFrom_cons,
    costFrom_cons, costFrom_congr hsame, ha, hb, Nat.zero_add]
  omega

/--
The cost of an entry without any rounding: one used `k` steps before the most recent one counts
with one part in `2 ^ k`.
-/
def exactCost (candidate : Int) (history : List Int) : ℚ :=
  (history.mapIdx fun k used => (penalty candidate used : ℚ) * 1024 / 2 ^ k).sum

theorem weight_eq_div {age : Nat} (h : age ≤ historyLimit) : (weight age : ℚ) = 1024 / 2 ^ age := by
  have hall : ∀ age : Fin (historyLimit + 1), weight age * 2 ^ age.val = 1024 := by decide
  have hexact : ((weight age * 2 ^ age : Nat) : ℚ) = (1024 : Nat) :=
    congrArg Nat.cast (hall ⟨age, Nat.lt_succ_of_le h⟩)
  rw [Nat.cast_mul, Nat.cast_pow] at hexact
  exact eq_div_of_mul_eq (pow_ne_zero age two_ne_zero) hexact

theorem sum_mapIdx_eq_costFrom (candidate : Int) (age : Nat) {older : List Int}
    (h : age + older.length ≤ historyLimit) :
    (older.mapIdx fun k used => (penalty candidate used : ℚ) * 1024 / 2 ^ (age + k)).sum =
      (costFrom candidate age older : ℚ) := by
  induction older generalizing age with
  | nil => simp
  | cons used older ih =>
    rw [List.length_cons] at h
    have hrest := ih (age + 1) (by omega)
    have hage : ∀ i, age + 1 + i = age + (i + 1) := by omega
    simp only [hage] at hrest
    rw [List.mapIdx_cons, List.sum_cons, hrest, costFrom_cons, Nat.cast_add, Nat.cast_mul,
      weight_eq_div (by omega), mul_div_assoc, Nat.add_zero]

theorem exactCost_eq_cost (candidate : Int) {history : List Int}
    (h : history.length ≤ historyLimit) : exactCost candidate history = cost candidate history := by
  rw [← Nat.zero_add history.length] at h
  have hsum := sum_mapIdx_eq_costFrom candidate 0 h
  simp only [Nat.zero_add] at hsum
  rw [cost_eq_costFrom, exactCost, hsum]

theorem cost_pick_le {history : List Int} {other : Nat}
    (h : other ∈ unused (history.take historyLimit)) :
    cost (pick history) (history.take historyLimit) ≤ cost other (history.take historyLimit) ∧
      (other < pick history → cost (pick history) (history.take historyLimit) <
        cost other (history.take historyLimit)) := by
  obtain ⟨front, rest, hunused, hfront, hrest⟩ :=
    exists_append_of_firstLeast?_eq_some (firstLeast?_unused history)
  have hsorted : (front ++ pick history :: rest).Pairwise (· < ·) := by
    rw [← hunused]
    exact List.pairwise_lt_range.filter _
  have hlater := (List.pairwise_cons.mp (List.pairwise_append.mp hsorted).2.1).1
  rw [hunused, List.mem_append, List.mem_cons] at h
  rcases h with hmem | rfl | hmem
  · exact ⟨(hfront other hmem).le, fun _ => hfront other hmem⟩
  · exact ⟨Nat.le_refl _, fun hless => absurd hless (Nat.lt_irrefl _)⟩
  · exact ⟨hrest other hmem, fun hless => absurd (hlater other hmem) (Nat.lt_asymm hless)⟩

/--
The best entry after a recent history: one of the fourteen, not in that history, and of those the
first whose exact cost is least.
-/
structure IsBest (recent : List Int) (index : Nat) : Prop where
  isEntry : index < 14
  isUnused : (index : Int) ∉ recent
  least : ∀ other : Nat, other < 14 → (other : Int) ∉ recent →
    exactCost index recent ≤ exactCost other recent
  first : ∀ other : Nat, other < index → (other : Int) ∉ recent →
    exactCost index recent < exactCost other recent

theorem IsBest.unique {recent : List Int} {i j : Nat} (hi : IsBest recent i)
    (hj : IsBest recent j) : i = j := by
  rcases Nat.lt_trichotomy i j with hless | heq | hless
  · exact absurd (hi.least j hj.isEntry hj.isUnused) (hj.first i hless hi.isUnused).not_ge
  · exact heq
  · exact absurd (hj.least i hi.isEntry hi.isUnused) (hi.first j hless hj.isUnused).not_ge

theorem isBest_pick (history : List Int) :
    IsBest (history.take historyLimit) (pick history) := by
  have hexact : ∀ candidate, exactCost candidate (history.take historyLimit) =
      cost candidate (history.take historyLimit) :=
    fun candidate => exactCost_eq_cost candidate (List.length_take_le historyLimit history)
  refine ⟨pick_lt_size history, pick_not_mem_recent history, ?least, ?first⟩
  case least =>
    intro other hother hunused
    rw [hexact, hexact, Nat.cast_le]
    exact (cost_pick_le (mem_unused_iff.mpr ⟨hother, hunused⟩)).1
  case first =>
    intro other hless hunused
    have hother := Nat.lt_trans hless (pick_lt_size history)
    rw [hexact, hexact, Nat.cast_lt]
    exact (cost_pick_le (mem_unused_iff.mpr ⟨hother, hunused⟩)).2 hless

/--
After any history there is an entry left to pick. The pick is the best after the ten most recent
entries and the only one that is; what is older does not matter.
-/
theorem pick_is_best (history : List Int) :
    firstLeast? (fun i : Nat => cost i (history.take 10)) (unused (history.take 10)) =
        some (pick history) ∧
      (∀ index, IsBest (history.take 10) index ↔ index = pick history) ∧
      pick (history.take 10) = pick history := by
  refine ⟨firstLeast?_unused history, ?only, ?older⟩
  case only =>
    intro index
    constructor
    · intro h
      exact h.unique (isBest_pick history)
    · rintro rfl
      exact isBest_pick history
  case older =>
    rw [pick, pick]
    simp only [historyLimit, List.take_take, Nat.min_self]

/--
Going back in a history to where the penalties of two entries first differ, one that is a neighbor
there costs more in the end than one that is not alike, whatever is older. So the pick is no neighbor
of the most recent entry while an unused entry is not like that one at all.
-/
theorem recent_neighbors_dominate :
    (∀ (a b used : Int) (newer older : List Int), (newer ++ used :: older).length ≤ 10 →
      (∀ h ∈ newer, penalty a h = penalty b h) → penalty a used = 4 → penalty b used = 0 →
      cost b (newer ++ used :: older) < cost a (newer ++ used :: older)) ∧
    ∀ (recent : Int) (older : List Int),
      (∃ index : Nat, index < 14 ∧ (index : Int) ∉ (recent :: older).take 10 ∧
        penalty index recent = 0) →
      penalty (pick (recent :: older)) recent ≠ 4 := by
  refine ⟨fun a b used newer older => cost_lt_of_neighbor, ?_⟩
  rintro recent older ⟨index, hindex, hunused, hapart⟩ hneighbor
  have hnone : ∀ h ∈ ([] : List Int), penalty (pick (recent :: older)) h = penalty index h := by
    simp
  have hlength : (([] : List Int) ++ recent :: older.take 9).length ≤ historyLimit :=
    Nat.succ_le_succ (List.length_take_le 9 older)
  have hless := cost_lt_of_neighbor hlength hnone hneighbor hapart
  have hle := (cost_pick_le (mem_unused_iff.mpr ⟨hindex, hunused⟩)).1
  exact absurd hless (Nat.not_lt_of_le hle)

/-- Eight older neighbors of azure do not make up for one of orange. -/
theorem recent_neighbors_dominate_orange :
    let older : List Int := [6, 8, 6, 8, 6, 8, 6, 8]
    cost 7 ([13] ++ 0 :: older) < cost 1 ([13] ++ 0 :: older) ∧
      penalty (pick (0 :: older)) 0 ≠ 4 := by
  intro older
  have hsame : ∀ h ∈ ([13] : List Int), penalty 1 h = penalty 7 h := by decide
  have hunused : ((7 : Nat) : Int) ∉ (0 :: older).take 10 := by decide
  exact ⟨recent_neighbors_dominate.1 1 7 0 [13] older (by decide) hsame (by decide) (by decide),
    recent_neighbors_dominate.2 0 older ⟨7, by decide, hunused, by decide⟩⟩

end Palette

end ShellPrompt
