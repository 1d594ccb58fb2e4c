import Mathlib.Data.Finset.Card
import ShellPrompt.Failure
import ShellPrompt.Proofs.Palette.Choice
/-!
What a color cache is meant to be: a list of those who have a color, most recently used first, cut
to a capacity. A memory knows nothing of files or times. Its own laws are here: how much it holds,
how long it remembers, that it does not confuse colors, and that names do not matter to it.
-/

set_option autoImplicit false

namespace ShellPrompt

/-- A question to a cache: for the color of a root, asked at a time, or for all colors in use. -/
inductive Question where
  | color (root : Text) (time : Int)
  | history
deriving DecidableEq

inductive Reply where
  | color (index : Nat)
  | history (indices : List Nat)
  | failed (failure : Failure)
deriving DecidableEq

namespace Question

def root? : Question → Option Text
  | color root _ => some root
  | history => none

def time? : Question → Option Int
  | color _ time => some time
  | history => none

def roots (questions : List Question) : List Text :=
  questions.filterMap root?

def times (questions : List Question) : List Int :=
  questions.filterMap time?

def keys {α : Type} (keyOf : Text → Except Breakdown α) (questions : List Question) : List α :=
  (roots questions).filterMap fun root => (keyOf root).toOption

theorem mem_keys_iff {α : Type} {keyOf : Text → Except Breakdown α} {questions : List Question}
    {key : α} : key ∈ keys keyOf questions ↔ ∃ root ∈ roots questions, keyOf root = .ok key := by
  have hkey : ∀ result : Except Breakdown α, result.toOption = some key ↔ result = .ok key := by
    intro result
    cases result <;> simp [Except.toOption]
  simp only [keys, List.mem_filterMap, hkey]

variable {σ : Type}

def replies (ask : Question → σ → Reply × σ) : List Question → σ → List Reply × σ
  | [], state => ([], state)
  | question :: questions, state =>
    let (reply, state) := ask question state
    let (more, state) := replies ask questions state
    (reply :: more, state)

theorem replies_cons (ask : Question → σ → Reply × σ) (question : Question)
    (questions : List Question) (state : σ) :
    replies ask (question :: questions) state =
      ((ask question state).1 :: (replies ask questions (ask question state).2).1,
        (replies ask questions (ask question state).2).2) := rfl

theorem replies_append (ask : Question → σ → Reply × σ) (questions more : List Question)
    (state : σ) :
    replies ask (questions ++ more) state =
      ((replies ask questions state).1 ++ (replies ask more (replies ask questions state).2).1,
        (replies ask more (replies ask questions state).2).2) := by
  induction questions generalizing state with
  | nil => rfl
  | cons question questions ih => simp only [List.cons_append, replies_cons, ih]

@[simp] theorem length_replies (ask : Question → σ → Reply × σ) (questions : List Question)
    (state : σ) : (replies ask questions state).1.length = questions.length := by
  induction questions generalizing state with
  | nil => rfl
  | cons question questions ih => simp only [replies_cons, List.length_cons, ih]

theorem replies_preserve (Inv : σ → Prop) {ask : Question → σ → Reply × σ}
    {questions : List Question}
    (hask : ∀ question ∈ questions, ∀ state, Inv state → Inv (ask question state).2)
    {state : σ} (h : Inv state) : Inv (replies ask questions state).2 := by
  induction questions generalizing state with
  | nil => exact h
  | cons question questions ih =>
    rw [List.forall_mem_cons] at hask
    exact ih hask.2 (hask.1 state h)

end Question

/-- Who has which color, most recently used first. -/
abbrev Memory (α : Type) := List (α × Nat)

namespace Memory

section Use

variable {α : Type} [DecidableEq α]

def keys (memory : Memory α) : List α :=
  memory.map Prod.fst

def indices (memory : Memory α) : List Nat :=
  memory.map Prod.snd

def index? (memory : Memory α) (key : α) : Option Nat :=
  (memory.find? fun (other, _) => other = key).map Prod.snd

def forget (memory : Memory α) (key : α) : Memory α :=
  memory.filter fun (other, _) => other ≠ key

/--
The color of a key, and the memory after its use. One that is remembered comes to the front with
its color; any other gets a color there, and what is then beyond the capacity is forgotten.
-/
def use (capacity : Nat) (key : α) (memory : Memory α) : Nat × Memory α :=
  match memory.index? key with
  | some index => (index, (key, index) :: memory.forget key)
  | none =>
    let index := Palette.pick (memory.indices.map Int.ofNat)
    (index, ((key, index) :: memory).take capacity)

/-- What a memory replies. It fails on a root that has no key, and forgets nothing then. -/
def ask (capacity : Nat) (keyOf : Text → Except Breakdown α) (question : Question)
    (memory : Memory α) : Reply × Memory α :=
  match question with
  | .color root _ =>
    match keyOf root with
    | .error breakdown => (.failed (.breakdown breakdown), memory)
    | .ok key =>
      let (index, memory) := memory.use capacity key
      (.color index, memory)
  | .history => (.history memory.indices, memory)

variable {capacity : Nat} {memory : Memory α} {key : α} {index : Nat}
  {keyOf : Text → Except Breakdown α} {root : Text}

theorem ask_of_keyOf_eq_ok (h : keyOf root = .ok key) (capacity : Nat) (time : Int)
    (memory : Memory α) : ask capacity keyOf (.color root time) memory =
      (.color (memory.use capacity key).1, (memory.use capacity key).2) := by
  simp only [ask, h]

theorem ask_of_keyOf_eq_error {breakdown : Breakdown} (h : keyOf root = .error breakdown)
    (capacity : Nat) (time : Int) (memory : Memory α) :
    ask capacity keyOf (.color root time) memory = (.failed (.breakdown breakdown), memory) := by
  simp only [ask, h]

theorem replies_preserve {Inv : Memory α → Prop} {questions : List Question}
    (huse : ∀ key ∈ Question.keys keyOf questions, ∀ memory, Inv memory →
      Inv (memory.use capacity key).2)
    (h : Inv memory) : Inv (Question.replies (ask capacity keyOf) questions memory).2 := by
  refine Question.replies_preserve Inv ?_ h
  intro question hquestion memory hmemory
  cases question with
  | history => exact hmemory
  | color root time =>
    cases hkey : keyOf root with
    | error breakdown =>
      rw [ask_of_keyOf_eq_error hkey]
      exact hmemory
    | ok key =>
      rw [ask_of_keyOf_eq_ok hkey]
      have hroot : root ∈ Question.roots questions := List.mem_filterMap.mpr ⟨_, hquestion, rfl⟩
      exact huse key (Question.mem_keys_iff.mpr ⟨root, hroot, hkey⟩) memory hmemory

theorem index?_cons_self (key : α) (index : Nat) (memory : Memory α) :
    index? ((key, index) :: memory) key = some index := by
  simp [index?]

theorem index?_append_of_not_mem {front : Memory α} (h : key ∉ front.keys) (memory : Memory α) :
    index? (front ++ memory) key = memory.index? key := by
  have hfront : front.find? (fun (other, _) => other = key) = none := by
    rw [List.find?_eq_none]
    rintro ⟨other, index⟩ hmem
    have hother : other ≠ key := fun hother => h (hother ▸ List.mem_map_of_mem hmem)
    simpa using hother
  rw [index?, index?, List.find?_append, hfront, Option.none_or]

theorem index?_eq_none_iff : memory.index? key = none ↔ key ∉ memory.keys := by
  rw [index?, Option.map_eq_none_iff, List.find?_eq_none, keys, List.mem_map]
  constructor
  · rintro h ⟨⟨other, index⟩, hmem, rfl⟩
    simpa using h _ hmem
  · rintro h ⟨other, index⟩ hmem
    have hother : other ≠ key := fun hother => h ⟨_, hmem, hother⟩
    simpa using hother

theorem mem_of_index?_eq_some (h : memory.index? key = some index) : (key, index) ∈ memory := by
  obtain ⟨⟨other, found⟩, hfind, rfl⟩ := Option.map_eq_some_iff.mp h
  have hother : other = key := by simpa using List.find?_some hfind
  exact hother ▸ List.mem_of_find?_eq_some hfind

theorem mem_forget_iff {entry : α × Nat} :
    entry ∈ memory.forget key ↔ entry ∈ memory ∧ entry.1 ≠ key := by
  simp [forget]

theorem use_of_index?_eq_some (h : memory.index? key = some index) (capacity : Nat) :
    memory.use capacity key = (index, (key, index) :: memory.forget key) := by
  simp only [use, h]

theorem use_of_index?_eq_none (h : memory.index? key = none) (capacity : Nat) :
    memory.use capacity key =
      (Palette.pick (memory.indices.map Int.ofNat),
        ((key, Palette.pick (memory.indices.map Int.ofNat)) :: memory).take capacity) := by
  simp only [use, h]

theorem length_use_le (h : memory.length ≤ capacity) (key : α) :
    (memory.use capacity key).2.length ≤ capacity := by
  cases hindex : memory.index? key with
  | some index =>
    have hdropped : (memory.forget key).length < memory.length :=
      List.length_filter_lt_length_iff_exists.mpr
        ⟨(key, index), mem_of_index?_eq_some hindex, by simp⟩
    rw [use_of_index?_eq_some hindex, List.length_cons]
    omega
  | none =>
    rw [use_of_index?_eq_none hindex]
    exact List.length_take_le _ _

theorem length_replies_le (h : memory.length ≤ capacity)
    (keyOf : Text → Except Breakdown α) (questions : List Question) :
    (Question.replies (ask capacity keyOf) questions memory).2.length ≤ capacity := by
  let Inv : Memory α → Prop := fun memory => memory.length ≤ capacity
  have huse : ∀ key ∈ Question.keys keyOf questions, ∀ memory, Inv memory →
      Inv (memory.use capacity key).2 := fun key _ memory hlength => length_use_le hlength key
  exact replies_preserve huse (show Inv memory from h)

theorem mem_keys_of_mem_keys_use {other : α} (h : other ∈ (memory.use capacity key).2.keys) :
    other = key ∨ other ∈ memory.keys := by
  obtain ⟨entry, hentry, rfl⟩ := List.mem_map.mp h
  cases hindex : memory.index? key with
  | some index =>
    rw [use_of_index?_eq_some hindex] at hentry
    rcases List.mem_cons.mp hentry with rfl | hentry
    · exact Or.inl rfl
    · exact Or.inr (List.mem_map_of_mem (mem_forget_iff.mp hentry).1)
  | none =>
    rw [use_of_index?_eq_none hindex] at hentry
    rcases List.mem_cons.mp (List.mem_of_mem_take hentry) with rfl | hentry
    · exact Or.inl rfl
    · exact Or.inr (List.mem_map_of_mem hentry)

end Use

section Remembering

variable {α : Type} [DecidableEq α] {capacity : Nat}

/-- The key has this color, and only keys of `others` were used after it. -/
def Recalls (others : Finset α) (key : α) (index : Nat) (memory : Memory α) : Prop :=
  ∃ front rest, memory = front ++ (key, index) :: rest ∧ front.keys.Nodup ∧
    ∀ other ∈ front.keys, other ∈ others.erase key

variable {others : Finset α} {key : α} {index : Nat} {memory : Memory α}

theorem Recalls.index? (h : Recalls others key index memory) : memory.index? key = some index := by
  obtain ⟨front, rest, rfl, -, hfront⟩ := h
  have hkey : key ∉ front.keys := fun hkey => Finset.notMem_erase key others (hfront key hkey)
  rw [index?_append_of_not_mem hkey, index?_cons_self]

theorem recalls_use (others : Finset α) (hcapacity : 0 < capacity) (key : α)
    (memory : Memory α) :
    Recalls others key (memory.use capacity key).1 (memory.use capacity key).2 := by
  obtain ⟨size, rfl⟩ := Nat.exists_eq_succ_of_ne_zero hcapacity.ne'
  cases hindex : memory.index? key with
  | some index =>
    rw [use_of_index?_eq_some hindex]
    exact ⟨[], memory.forget key, rfl, List.nodup_nil, by simp [keys]⟩
  | none =>
    rw [use_of_index?_eq_none hindex, List.take_succ_cons]
    exact ⟨[], memory.take size, rfl, List.nodup_nil, by simp [keys]⟩

theorem forget_append_cons {used : α} (h : key ≠ used) (front rest : Memory α) :
    forget (front ++ (key, index) :: rest) used =
      front.forget used ++ (key, index) :: forget rest used := by
  simp [forget, h]

theorem nodup_keys_cons_forget {front : Memory α} (h : front.keys.Nodup) (used : α)
    (index : Nat) : (keys ((used, index) :: front.forget used)).Nodup := by
  refine List.nodup_cons.mpr ⟨?_, h.sublist (List.filter_sublist.map Prod.fst)⟩
  intro hmem
  obtain ⟨entry, hentry, hfst⟩ := List.mem_map.mp hmem
  exact (mem_forget_iff.mp hentry).2 hfst

theorem length_le_card {front : Memory α} (hnodup : front.keys.Nodup) {names : Finset α}
    (hnames : ∀ other ∈ front.keys, other ∈ names) : front.length ≤ names.card := by
  have hcard := Finset.card_le_card fun other hmem => hnames other (List.mem_toFinset.mp hmem)
  rwa [List.toFinset_card_of_nodup hnodup, keys, List.length_map] at hcard

theorem Recalls.use (h : Recalls others key index memory)
    (hroom : (others.erase key).card < capacity) {used : α} (hused : used ∈ others ∨ used = key) :
    Recalls others key index (memory.use capacity used).2 := by
  by_cases hkey : used = key
  · subst hkey
    have huse := recalls_use others (Nat.zero_lt_of_lt hroom) used memory
    rwa [use_of_index?_eq_some h.index?] at huse ⊢
  have hother : used ∈ others.erase key :=
    Finset.mem_erase.mpr ⟨hkey, hused.resolve_right hkey⟩
  obtain ⟨front, rest, rfl, hnodup, hfront⟩ := h
  cases hindex : Memory.index? (front ++ (key, index) :: rest) used with
  | some found =>
    rw [use_of_index?_eq_some hindex, forget_append_cons (Ne.symm hkey)]
    refine ⟨(used, found) :: front.forget used, forget rest used, rfl,
      nodup_keys_cons_forget hnodup used found, ?_⟩
    intro other hmem
    rcases List.mem_cons.mp hmem with rfl | hmem
    · exact hother
    · exact hfront other ((List.filter_sublist.map Prod.fst).subset hmem)
  | none =>
    have hnew : used ∉ front.keys := by
      intro hmem
      refine index?_eq_none_iff.mp hindex ?_
      rw [keys, List.map_append, List.mem_append]
      exact Or.inl hmem
    rw [use_of_index?_eq_none hindex]
    generalize Palette.pick _ = picked
    have hnodup' : (keys ((used, picked) :: front)).Nodup := List.nodup_cons.mpr ⟨hnew, hnodup⟩
    have hfront' : ∀ other ∈ keys ((used, picked) :: front), other ∈ others.erase key := by
      intro other hmem
      rcases List.mem_cons.mp hmem with rfl | hmem
      · exact hother
      · exact hfront other hmem
    have hlength := length_le_card hnodup' hfront'
    obtain ⟨room, hroom'⟩ := Nat.exists_eq_add_of_lt (hlength.trans_lt hroom)
    refine ⟨(used, picked) :: front, rest.take room, ?_, hnodup', hfront'⟩
    rw [← List.cons_append, hroom', Nat.add_assoc, List.take_length_add_append,
      List.take_succ_cons]

/--
A root that is asked for again has the color it had, wherever in a run of questions, if the others
asked for in between are fewer than the capacity.
-/
theorem replies_recall {keyOf : Text → Except Breakdown α} {root again : Text}
    (hroot : keyOf root = .ok key) (hagain : keyOf again = .ok key) {between : List Question}
    (hroom : ((Question.keys keyOf between).toFinset.erase key).card < capacity)
    (before after : List Question) (time later : Int) (memory : Memory α) :
    ∃ index earlier middle last,
      (Question.replies (ask capacity keyOf)
        (before ++ .color root time :: (between ++ .color again later :: after)) memory).1 =
          earlier ++ .color index :: (middle ++ .color index :: last) ∧
        earlier.length = before.length ∧ middle.length = between.length := by
  rw [Question.replies_append, Question.replies_cons, Question.replies_append,
    Question.replies_cons, ask_of_keyOf_eq_ok hroot]
  generalize (Question.replies (ask capacity keyOf) before memory).2 = memory
  have hused := recalls_use (Question.keys keyOf between).toFinset (Nat.zero_lt_of_lt hroom) key
    memory
  have hkept : Recalls (Question.keys keyOf between).toFinset key (memory.use capacity key).1
      (Question.replies (ask capacity keyOf) between (memory.use capacity key).2).2 := by
    refine replies_preserve ?_ hused
    intro other hother memory hrecalls
    exact hrecalls.use hroom (Or.inl (List.mem_toFinset.mpr hother))
  rw [ask_of_keyOf_eq_ok hagain, use_of_index?_eq_some hkept.index?]
  exact ⟨_, _, _, _, rfl, Question.length_replies _ _ _, Question.length_replies _ _ _⟩

end Remembering

section Distinct

variable {α : Type} {capacity : Nat} {memory : Memory α}

/-- No two have the same color, and all colors are in the palette. -/
structure IsDistinct (memory : Memory α) : Prop where
  nodup : memory.indices.Nodup
  lt_size : ∀ index ∈ memory.indices, index < Palette.size

theorem isDistinct_nil : IsDistinct ([] : Memory α) :=
  ⟨List.nodup_nil, by simp [indices]⟩

theorem IsDistinct.key_eq (h : IsDistinct memory) {key other : α} {index : Nat}
    (hkey : (key, index) ∈ memory) (hother : (other, index) ∈ memory) : key = other :=
  congrArg Prod.fst (List.inj_on_of_nodup_map h.nodup hkey hother rfl)

theorem IsDistinct.use [DecidableEq α] (h : IsDistinct memory)
    (hlength : memory.length ≤ Palette.historyLimit) (key : α) :
    IsDistinct (memory.use capacity key).2 := by
  cases hindex : memory.index? key with
  | some index =>
    have hmem := mem_of_index?_eq_some hindex
    have hsublist : List.Sublist (indices (memory.forget key)) memory.indices :=
      List.filter_sublist.map Prod.snd
    rw [use_of_index?_eq_some hindex]
    refine ⟨List.nodup_cons.mpr ⟨?_, h.nodup.sublist hsublist⟩, ?_⟩
    · intro hsame
      obtain ⟨⟨other, index⟩, hentry, rfl⟩ := List.mem_map.mp hsame
      obtain ⟨hentry, hne⟩ := mem_forget_iff.mp hentry
      exact hne (h.key_eq hentry hmem)
    · intro other hother
      rcases List.mem_cons.mp hother with rfl | hother
      · exact h.lt_size other (List.mem_map_of_mem hmem)
      · exact h.lt_size other (hsublist.subset hother)
  | none =>
    rw [use_of_index?_eq_none hindex]
    have hpick := Palette.pick_not_mem_recent (memory.indices.map Int.ofNat)
    have hsize := Palette.pick_lt_size (memory.indices.map Int.ofNat)
    revert hpick hsize
    generalize Palette.pick _ = picked
    intro hpick hsize
    have hnew : picked ∉ memory.indices := by
      intro hmem
      rw [List.take_of_length_le (by simpa [indices] using hlength)] at hpick
      exact hpick (List.mem_map_of_mem hmem)
    have hsublist : List.Sublist (indices (((key, picked) :: memory).take capacity))
        (picked :: memory.indices) :=
      (List.take_sublist capacity ((key, picked) :: memory)).map Prod.snd
    refine ⟨(List.nodup_cons.mpr ⟨hnew, h.nodup⟩).sublist hsublist, ?_⟩
    intro other hother
    rcases List.mem_cons.mp (hsublist.subset hother) with rfl | hother
    · exact hsize
    · exact h.lt_size other hother

theorem IsDistinct.replies [DecidableEq α] (h : IsDistinct memory)
    (hlength : memory.length ≤ capacity) (hcapacity : capacity ≤ Palette.historyLimit)
    (keyOf : Text → Except Breakdown α) (questions : List Question) :
    IsDistinct (Question.replies (ask capacity keyOf) questions memory).2 := by
  let Inv : Memory α → Prop := fun memory => IsDistinct memory ∧ memory.length ≤ capacity
  have huse : ∀ key ∈ Question.keys keyOf questions, ∀ memory, Inv memory →
      Inv (memory.use capacity key).2 := by
    rintro key - memory ⟨hdistinct, hlength⟩
    exact ⟨hdistinct.use (hlength.trans hcapacity) key, length_use_le hlength key⟩
  exact (replies_preserve huse (show Inv memory from ⟨h, hlength⟩)).1

end Distinct

section Names

variable {α β : Type}

def renamed (rename : α → β) (memory : Memory α) : Memory β :=
  memory.map fun (key, index) => (rename key, index)

@[simp] theorem indices_renamed (rename : α → β) (memory : Memory α) :
    (memory.renamed rename).indices = memory.indices := by
  simp [indices, renamed]

theorem IsDistinct.renamed {memory : Memory α} (h : IsDistinct memory) (rename : α → β) :
    IsDistinct (memory.renamed rename) :=
  ⟨by simpa using h.nodup, by simpa using h.lt_size⟩

variable [DecidableEq α] [DecidableEq β] {rename : α → β} {names : Set α}

theorem use_renamed (hinj : names.InjOn rename) {memory : Memory α}
    (hmemory : ∀ key ∈ memory.keys, key ∈ names) {key : α} (hkey : key ∈ names)
    (capacity : Nat) :
    (memory.renamed rename).use capacity (rename key) =
      ((memory.use capacity key).1, (memory.use capacity key).2.renamed rename) := by
  have hsame : ∀ entry ∈ memory, (rename entry.1 = rename key ↔ entry.1 = key) := by
    intro entry hentry
    exact hinj.eq_iff (hmemory entry.1 (List.mem_map_of_mem hentry)) hkey
  have hindex : (memory.renamed rename).index? (rename key) = memory.index? key := by
    rw [index?, index?, renamed, List.find?_map, Option.map_map]
    have hfind : memory.find? ((fun (other, _) => other = rename key) ∘
        fun (key, index) => (rename key, index)) = memory.find? fun (other, _) => other = key := by
      rw [← List.head?_filter, ← List.head?_filter]
      congr 1
      refine List.filter_congr ?_
      intro entry hentry
      simpa using hsame entry hentry
    rw [hfind]
    rfl
  have hforget : (memory.renamed rename).forget (rename key) =
      (memory.forget key).renamed rename := by
    rw [forget, renamed, List.filter_map, forget, renamed]
    congr 1
    refine List.filter_congr ?_
    intro entry hentry
    simpa using hsame entry hentry
  cases hfound : memory.index? key with
  | some index =>
    rw [use_of_index?_eq_some (hindex.trans hfound), use_of_index?_eq_some hfound, hforget]
    rfl
  | none =>
    rw [use_of_index?_eq_none (hindex.trans hfound), use_of_index?_eq_none hfound,
      indices_renamed, renamed, renamed, List.map_take]
    rfl

/-- A memory replies alike whatever names it knows those by that it remembers. -/
theorem replies_renamed (hinj : names.InjOn rename) {keyOf : Text → Except Breakdown α}
    {questions : List Question} (hkeys : ∀ key ∈ Question.keys keyOf questions, key ∈ names)
    {memory : Memory α} (hmemory : ∀ key ∈ memory.keys, key ∈ names) (capacity : Nat) :
    Question.replies (ask capacity fun root => (keyOf root).map rename) questions
        (memory.renamed rename) =
      ((Question.replies (ask capacity keyOf) questions memory).1,
        (Question.replies (ask capacity keyOf) questions memory).2.renamed rename) := by
  induction questions generalizing memory with
  | nil => rfl
  | cons question questions ih =>
    rw [Question.replies_cons, Question.replies_cons]
    have hlater : ∀ key ∈ Question.keys keyOf questions, key ∈ names := by
      intro key hmem
      obtain ⟨root, hroot, hkey⟩ := Question.mem_keys_iff.mp hmem
      have hroots : List.Sublist (Question.roots questions)
          (Question.roots (question :: questions)) :=
        (List.sublist_cons_self question questions).filterMap _
      exact hkeys key (Question.mem_keys_iff.mpr ⟨root, hroots.subset hroot, hkey⟩)
    cases question with
    | history =>
      have hrest := ih hlater hmemory
      simp only [ask, indices_renamed, hrest]
    | color root time =>
      cases hkey : keyOf root with
      | error breakdown =>
        have hrenamed : (fun root => (keyOf root).map rename) root = .error breakdown := by
          simp only [hkey, Except.map]
        rw [ask_of_keyOf_eq_error hrenamed, ask_of_keyOf_eq_error hkey, ih hlater hmemory]
      | ok key =>
        have hrenamed : (fun root => (keyOf root).map rename) root = .ok (rename key) := by
          simp only [hkey, Except.map]
        have hname : key ∈ names :=
          hkeys key (Question.mem_keys_iff.mpr ⟨root, List.mem_cons_self, hkey⟩)
        have hnext : ∀ other ∈ (memory.use capacity key).2.keys, other ∈ names := by
          intro other hmem
          rcases mem_keys_of_mem_keys_use hmem with rfl | hmem
          · exact hname
          · exact hmemory other hmem
        rw [ask_of_keyOf_eq_ok hrenamed, ask_of_keyOf_eq_ok hkey, use_renamed hinj hmemory hname,
          ih hlater hnext]

end Names

end Memory

end ShellPrompt
