import Mathlib.Data.List.Infix
import ShellPrompt.Markup.Token
/-!
Regions of a line. `{` begins a region and `}` ends the nearest one that is still open. Whether a
region is open is said by counting what begins and ends after it; that each `}` ends the nearest
open region, and no other, is then a theorem (`openRegions_pop`).
-/

set_option autoImplicit false

namespace ShellPrompt

namespace Lexeme

def beginsRegion : Lexeme → Bool
  | transition .push _ => true
  | _ => false

def endsRegion : Lexeme → Bool
  | transition .pop _ => true
  | _ => false

theorem beginsRegion_iff {lexeme : Lexeme} :
    lexeme.beginsRegion = true ↔ ∃ spec, lexeme = .transition .push spec := by
  constructor
  · intro h
    cases lexeme with
    | transition t spec =>
      cases t with
      | push => exact ⟨spec, rfl⟩
      | pop | opening | closing => cases h
    | _ => cases h
  · rintro ⟨spec, rfl⟩
    rfl

/-- What a token does with regions: begin one, end one, end them all, or nothing. -/
theorem region_cases (lexeme : Lexeme) :
    (∃ spec, lexeme = .transition .push spec) ∨ (∃ spec, lexeme = .transition .pop spec) ∨
      lexeme = .lineBreak ∨
        lexeme.beginsRegion = false ∧ lexeme.endsRegion = false ∧ lexeme ≠ .lineBreak := by
  cases lexeme with
  | transition t spec =>
    cases t with
    | push => exact Or.inl ⟨spec, rfl⟩
    | pop => exact Or.inr (Or.inl ⟨spec, rfl⟩)
    | opening | closing => exact Or.inr (Or.inr (Or.inr ⟨rfl, rfl, nofun⟩))
  | lineBreak => exact Or.inr (Or.inr (Or.inl rfl))
  | separators | fill | segmentBreak | whitespace | literal | reset | spec =>
    exact Or.inr (Or.inr (Or.inr ⟨rfl, rfl, nofun⟩))

end Lexeme

namespace Regions

def begun (lexemes : List Lexeme) : Nat :=
  lexemes.countP Lexeme.beginsRegion

def ended (lexemes : List Lexeme) : Nat :=
  lexemes.countP Lexeme.endsRegion

/-- A region is open after tokens of its line if these never ended more regions than they began. -/
def LeaveOpen (after : List Lexeme) : Prop :=
  Lexeme.lineBreak ∉ after ∧ ∀ front, front <+: after → ended front ≤ begun front

instance (after : List Lexeme) : Decidable (LeaveOpen after) :=
  decidable_of_iff (Lexeme.lineBreak ∉ after ∧ ∀ front ∈ after.inits, ended front ≤ begun front)
    (by simp only [LeaveOpen, List.mem_inits])

/-- The token at a place begins a region, and those after it leave that region open. -/
def IsOpen (lexemes : List Lexeme) (place : Nat) : Prop :=
  lexemes[place]?.any Lexeme.beginsRegion = true ∧ LeaveOpen (lexemes.drop (place + 1))

instance (lexemes : List Lexeme) (place : Nat) : Decidable (IsOpen lexemes place) :=
  inferInstanceAs (Decidable (_ ∧ _))

/-- The places where the open regions begin, the innermost last. -/
def openRegions (lexemes : List Lexeme) : List Nat :=
  (List.range lexemes.length).filter fun place => IsOpen lexemes place

theorem begun_cons_push (spec : Option Spec) (lexemes : List Lexeme) :
    begun (.transition .push spec :: lexemes) = begun lexemes + 1 :=
  List.countP_cons_of_pos rfl

theorem ended_cons_push (spec : Option Spec) (lexemes : List Lexeme) :
    ended (.transition .push spec :: lexemes) = ended lexemes :=
  List.countP_cons_of_neg Bool.false_ne_true

@[simp] theorem begun_append (lexemes more : List Lexeme) :
    begun (lexemes ++ more) = begun lexemes + begun more := by
  simp [begun]

@[simp] theorem ended_append (lexemes more : List Lexeme) :
    ended (lexemes ++ more) = ended lexemes + ended more := by
  simp [ended]

theorem leaveOpen_concat (after : List Lexeme) (lexeme : Lexeme) :
    LeaveOpen (after ++ [lexeme]) ↔ LeaveOpen after ∧ lexeme ≠ .lineBreak ∧
      ended (after ++ [lexeme]) ≤ begun (after ++ [lexeme]) := by
  constructor
  · rintro ⟨hline, hfront⟩
    rw [List.mem_append, List.mem_singleton, not_or] at hline
    exact ⟨⟨hline.1, fun front h => hfront front (h.trans (List.prefix_append _ _))⟩,
      Ne.symm hline.2, hfront _ List.prefix_rfl⟩
  · rintro ⟨⟨hline, hfront⟩, hne, hwhole⟩
    refine ⟨?_, ?_⟩
    · rw [List.mem_append, List.mem_singleton, not_or]
      exact ⟨hline, Ne.symm hne⟩
    · intro front h
      rcases List.prefix_concat_iff.mp h with rfl | h
      · exact hwhole
      · exact hfront front h

theorem isOpen_drop (lexemes : List Lexeme) (distance place : Nat) :
    IsOpen (lexemes.drop distance) place ↔ IsOpen lexemes (distance + place) := by
  rw [IsOpen, IsOpen, List.getElem?_drop, List.drop_drop, Nat.add_assoc]

theorem lt_length_of_isOpen {lexemes : List Lexeme} {place : Nat} (h : IsOpen lexemes place) :
    place < lexemes.length := by
  by_contra hlength
  have hnone := List.getElem?_eq_none (Nat.le_of_not_lt hlength)
  rw [IsOpen, hnone] at h
  cases h.1

theorem mem_openRegions {lexemes : List Lexeme} {place : Nat} :
    place ∈ openRegions lexemes ↔ IsOpen lexemes place := by
  simp only [openRegions, List.mem_filter, List.mem_range, decide_eq_true_eq]
  exact ⟨And.right, fun h => ⟨lt_length_of_isOpen h, h⟩⟩

theorem isOpen_concat_of_lt {lexemes : List Lexeme} {place : Nat} (h : place < lexemes.length)
    (lexeme : Lexeme) :
    IsOpen (lexemes ++ [lexeme]) place ↔ IsOpen lexemes place ∧ lexeme ≠ .lineBreak ∧
      ended (lexemes.drop (place + 1) ++ [lexeme]) ≤
        begun (lexemes.drop (place + 1) ++ [lexeme]) := by
  have hdrop : (lexemes ++ [lexeme]).drop (place + 1) = lexemes.drop (place + 1) ++ [lexeme] :=
    List.drop_append_of_le_length h
  rw [IsOpen, IsOpen, List.getElem?_append_left h, hdrop, leaveOpen_concat, and_assoc]

theorem isOpen_concat_length (lexemes : List Lexeme) (lexeme : Lexeme) :
    IsOpen (lexemes ++ [lexeme]) lexemes.length ↔ lexeme.beginsRegion = true := by
  have hdrop : (lexemes ++ [lexeme]).drop (lexemes.length + 1) = [] :=
    List.drop_eq_nil_of_le (by simp)
  rw [IsOpen, hdrop, List.getElem?_concat_length]
  have hnone : LeaveOpen [] := by decide
  simp [hnone]

theorem openRegions_concat (lexemes : List Lexeme) (lexeme : Lexeme) :
    openRegions (lexemes ++ [lexeme]) =
      (openRegions lexemes).filter (fun place => IsOpen (lexemes ++ [lexeme]) place) ++
        if lexeme.beginsRegion then [lexemes.length] else [] := by
  rw [openRegions, List.length_append, List.length_singleton, List.range_succ, List.filter_append]
  congr 1
  · rw [openRegions, List.filter_filter]
    refine List.filter_congr fun place hplace => ?_
    have hopen := isOpen_concat_of_lt (List.mem_range.mp hplace) lexeme
    rw [Bool.eq_iff_iff, Bool.and_eq_true, decide_eq_true_iff, decide_eq_true_iff]
    exact ⟨fun h => ⟨h, (hopen.mp h).1⟩, And.left⟩
  · simp only [List.filter_cons, List.filter_nil, decide_eq_true_eq, isOpen_concat_length]

theorem leaveOpen_drop_of_isOpen {lexemes : List Lexeme} {place : Nat} (h : IsOpen lexemes place) :
    ended (lexemes.drop (place + 1)) ≤ begun (lexemes.drop (place + 1)) :=
  h.2.2 _ List.prefix_rfl

theorem isOpen_concat_of_isOpen {lexemes : List Lexeme} {place : Nat} (h : IsOpen lexemes place)
    (lexeme : Lexeme) :
    IsOpen (lexemes ++ [lexeme]) place ↔ lexeme ≠ .lineBreak ∧
      ended (lexemes.drop (place + 1)) + ended [lexeme] ≤
        begun (lexemes.drop (place + 1)) + begun [lexeme] := by
  rw [isOpen_concat_of_lt (lt_length_of_isOpen h), ended_append, begun_append]
  exact ⟨And.right, fun hnext => ⟨h, hnext⟩⟩

theorem begun_le_ended {lexemes : List Lexeme} (hline : Lexeme.lineBreak ∉ lexemes)
    (hnone : ∀ place, ¬ IsOpen lexemes place) {back : List Lexeme} (hback : back <:+ lexemes) :
    begun back ≤ ended back := by
  induction lexemes generalizing back with
  | nil =>
    obtain rfl := List.suffix_nil.mp hback
    exact Nat.le_refl 0
  | cons lexeme lexemes ih =>
    have hrest : ∀ {back : List Lexeme}, back <:+ lexemes → begun back ≤ ended back :=
      ih (fun h => hline (List.mem_cons_of_mem _ h)) fun place => hnone (place + 1)
    rcases List.suffix_cons_iff.mp hback with rfl | hback
    · have hall := hrest List.suffix_rfl
      by_cases hbegins : lexeme.beginsRegion = true
      · obtain ⟨spec, rfl⟩ := Lexeme.beginsRegion_iff.mp hbegins
        rw [begun_cons_push, ended_cons_push]
        by_contra hmore
        -- The rest ends as much as it begins, so the region that begins here would be open.
        refine hnone 0 ⟨rfl, fun h => hline (List.mem_cons_of_mem _ h), ?_⟩
        rintro front ⟨back, rfl⟩
        have hlast := hrest ⟨front, rfl⟩
        rw [begun_append, ended_append] at hall hmore
        omega
      · rw [begun, ended, List.countP_cons_of_neg hbegins, List.countP_cons]
        exact Nat.le_add_right_of_le hall
    · exact hrest hback

theorem exists_push_of_isOpen {lexemes : List Lexeme} {place : Nat} (h : IsOpen lexemes place) :
    ∃ spec, lexemes[place]? = some (.transition .push spec) := by
  obtain ⟨lexeme, hlexeme, hbegins⟩ := (Option.any_eq_true _ _).mp h.1
  obtain ⟨spec, rfl⟩ := Lexeme.beginsRegion_iff.mp hbegins
  exact ⟨spec, hlexeme⟩

theorem exists_isOpen_iff {lexemes : List Lexeme} {place : Nat} (h : IsOpen lexemes place) :
    (∃ inner, place < inner ∧ IsOpen lexemes inner) ↔
      ended (lexemes.drop (place + 1)) < begun (lexemes.drop (place + 1)) := by
  constructor
  · rintro ⟨inner, hinner, hopen⟩
    obtain ⟨distance, rfl⟩ : ∃ distance, inner = place + 1 + distance :=
      Nat.exists_eq_add_of_le hinner
    obtain ⟨spec, hpush⟩ := exists_push_of_isOpen hopen
    have hinside : (lexemes.drop (place + 1)).drop distance =
        .transition .push spec :: lexemes.drop (place + 1 + distance + 1) := by
      rw [List.drop_drop, List.drop_eq_getElem?_toList_append, hpush]
      rfl
    have hfront := h.2.2 _ (List.take_prefix distance _)
    have hback := leaveOpen_drop_of_isOpen hopen
    rw [← List.take_append_drop distance (lexemes.drop (place + 1)), hinside, ended_append,
      begun_append, ended_cons_push, begun_cons_push]
    omega
  · intro hmore
    by_contra hnone
    rw [not_exists] at hnone
    refine absurd (begun_le_ended h.2.1 ?_ List.suffix_rfl) (Nat.not_le_of_lt hmore)
    intro distance hopen
    rw [isOpen_drop] at hopen
    exact hnone _ ⟨by omega, hopen⟩

theorem sorted_openRegions (lexemes : List Lexeme) :
    (openRegions lexemes).Pairwise (· < ·) :=
  List.pairwise_lt_range.filter _

theorem filter_eq_dropLast {xs : List Nat} {p : Nat → Bool} (hsorted : xs.Pairwise (· < ·))
    (hp : ∀ x ∈ xs, p x = true ↔ ∃ y ∈ xs, x < y) : xs.filter p = xs.dropLast := by
  rcases List.eq_nil_or_concat xs with rfl | ⟨front, last, rfl⟩
  · rfl
  · rw [List.concat_eq_append] at hsorted hp ⊢
    obtain ⟨-, -, hlast⟩ := List.pairwise_append.mp hsorted
    have hkept : front.filter p = front := by
      rw [List.filter_eq_self]
      intro x hx
      exact (hp x (List.mem_append_left _ hx)).mpr
        ⟨last, List.mem_concat_self, hlast x hx last (List.mem_singleton_self _)⟩
    have hdropped : ¬ p last = true := by
      intro h
      obtain ⟨y, hy, hless⟩ := (hp last List.mem_concat_self).mp h
      rcases List.mem_append.mp hy with hy | hy
      · exact Nat.lt_asymm hless (hlast y hy last (List.mem_singleton_self _))
      · exact Nat.lt_irrefl _ (List.mem_singleton.mp hy ▸ hless)
    rw [List.dropLast_concat, List.filter_append, hkept, List.filter_cons_of_neg hdropped,
      List.filter_nil, List.append_nil]

section Concat

variable (lexemes : List Lexeme)

theorem openRegions_push (spec : Option Spec) :
    openRegions (lexemes ++ [.transition .push spec]) =
      openRegions lexemes ++ [lexemes.length] := by
  have hkept : (openRegions lexemes).filter
      (fun place => IsOpen (lexemes ++ [.transition .push spec]) place) = openRegions lexemes := by
    rw [List.filter_eq_self]
    intro place hplace
    have hopen := mem_openRegions.mp hplace
    rw [decide_eq_true_iff, isOpen_concat_of_isOpen hopen]
    exact ⟨nofun, Nat.add_le_add (leaveOpen_drop_of_isOpen hopen) (Nat.zero_le 1)⟩
  rw [openRegions_concat, hkept]
  rfl

/-- The end of a region ends the innermost one that is open, if there is any. -/
theorem openRegions_pop (spec : Option Spec) :
    openRegions (lexemes ++ [.transition .pop spec]) = (openRegions lexemes).dropLast := by
  have hkept : (openRegions lexemes).filter
      (fun place => IsOpen (lexemes ++ [.transition .pop spec]) place) =
        (openRegions lexemes).dropLast := by
    refine filter_eq_dropLast (sorted_openRegions lexemes) fun place hplace => ?_
    have hopen := mem_openRegions.mp hplace
    simp only [decide_eq_true_iff, isOpen_concat_of_isOpen hopen, mem_openRegions]
    rw [exists_congr fun _ => and_comm, exists_isOpen_iff hopen]
    exact ⟨And.right, fun h => ⟨nofun, h⟩⟩
  rw [openRegions_concat, hkept]
  exact List.append_nil _

theorem openRegions_lineBreak : openRegions (lexemes ++ [.lineBreak]) = [] := by
  have hkept : (openRegions lexemes).filter
      (fun place => IsOpen (lexemes ++ [.lineBreak]) place) = [] := by
    rw [List.filter_eq_nil_iff]
    intro place hplace
    rw [decide_eq_true_iff, isOpen_concat_of_isOpen (mem_openRegions.mp hplace)]
    exact fun h => h.1 rfl
  rw [openRegions_concat, hkept]
  rfl

theorem openRegions_other {lexeme : Lexeme} (hbegins : lexeme.beginsRegion = false)
    (hends : lexeme.endsRegion = false) (hline : lexeme ≠ .lineBreak) :
    openRegions (lexemes ++ [lexeme]) = openRegions lexemes := by
  have hkept : (openRegions lexemes).filter
      (fun place => IsOpen (lexemes ++ [lexeme]) place) = openRegions lexemes := by
    rw [List.filter_eq_self]
    intro place hplace
    have hopen := mem_openRegions.mp hplace
    have hended : ended [lexeme] = 0 := by simp [ended, hends]
    rw [decide_eq_true_iff, isOpen_concat_of_isOpen hopen, hended]
    exact ⟨hline, Nat.add_le_add (leaveOpen_drop_of_isOpen hopen) (Nat.zero_le _)⟩
  rw [openRegions_concat, hkept, hbegins]
  exact List.append_nil _

end Concat

end Regions

end ShellPrompt
