import ShellPrompt.Cache.Colors
import ShellPrompt.Proofs.Program.Homes
import ShellPrompt.Proofs.Storage.Entries
import ShellPrompt.Proofs.Text.Hexadecimal
/-!
Which roots have a file in a color cache. The system has to be able to look the root up, and its
place has to have an UTF-8 form; any other root leads to a breakdown (`fileName_eq_error_iff`).
-/

set_option autoImplicit false

namespace ShellPrompt

theorem Sha1.isName_hexDigest (message : Bytes) : Path.IsName (hexDigest message) := by
  have hhex : ∀ c ∈ hexDigest message, c.isHexDigit = true := by
    intro c hc
    simp only [hexDigest, Text.concat, List.mem_flatten, List.mem_map] at hc
    obtain ⟨_, ⟨word, _, rfl⟩, hc⟩ := hc
    exact Text.isHexDigit_of_mem_hexadecimal hc
  refine ⟨?_, ?_, ?_, ?_⟩
  · simp [hexDigest, Text.concat, Text.hexadecimal_ne_nil]
  · intro hmem
    exact absurd (hhex _ hmem) (by decide)
  · intro hsame
    exact absurd (hhex (CodePoint.ofChar '.') (hsame ▸ List.mem_cons_self)) (by decide)
  · intro hsame
    exact absurd (hhex (CodePoint.ofChar '.') (hsame ▸ List.mem_cons_self)) (by decide)

namespace ColorCache

variable {environment : Environment} {root name : Text} {place : Location} {cause : Breakdown}

/-- The place of a root, unless the root cannot be looked up or its place has no UTF-8 form. -/
def rootPlace (environment : Environment) (root : Text) : Except Breakdown Location :=
  match environment.lookUp (Path.ofText root) with
  | .error breakdown => .error breakdown
  | .ok place =>
    if (Path.ofLocation place).written.any CodePoint.isSurrogate then .error .surrogateInPath
    else .ok place

def digestOf (place : Location) : Text :=
  (digest? place).getD []

theorem digest?_eq_none_iff :
    digest? place = none ↔ (Path.ofLocation place).written.any CodePoint.isSurrogate = true := by
  rw [digest?, Option.map_eq_none_iff, Utf8.encode?_eq_none_iff]

theorem fileName_eq (environment : Environment) (root : Text) :
    fileName environment root = (rootPlace environment root).map digestOf := by
  rw [fileName, rootPlace]
  cases environment.lookUp (Path.ofText root) with
  | error breakdown => rfl
  | ok place =>
    dsimp only
    cases hdigest : digest? place with
    | none =>
      rw [if_pos (digest?_eq_none_iff.mp hdigest)]
      rfl
    | some digest =>
      have hplain : ¬ (Path.ofLocation place).written.any CodePoint.isSurrogate = true := by
        rw [← digest?_eq_none_iff, hdigest]
        simp
      rw [if_neg hplain, Except.map, digestOf, hdigest]
      rfl

theorem fileName_of_rootPlace (h : rootPlace environment root = .ok place) :
    fileName environment root = .ok (digestOf place) := by
  rw [fileName_eq, h]
  rfl

theorem digest?_of_rootPlace (h : rootPlace environment root = .ok place) :
    digest? place = some (digestOf place) := by
  have hsome : digest? place ≠ none := by
    rw [Ne, digest?_eq_none_iff]
    intro hsurrogate
    rw [rootPlace] at h
    split at h
    · cases h
    · split at h
      · cases h
      next hplain =>
        cases h
        exact hplain hsurrogate
  obtain ⟨name, hname⟩ := Option.ne_none_iff_exists'.mp hsome
  rw [digestOf, hname]
  rfl

theorem fileName_eq_ok_iff : fileName environment root = .ok name ↔
    ∃ place, rootPlace environment root = .ok place ∧ digest? place = some name := by
  cases hplace : rootPlace environment root with
  | error breakdown => simp [fileName_eq, hplace, Except.map]
  | ok place => simp [fileName_of_rootPlace hplace, digest?_of_rootPlace hplace]

theorem isName_of_fileName (h : fileName environment root = .ok name) : Path.IsName name := by
  obtain ⟨place, -, hdigest⟩ := fileName_eq_ok_iff.mp h
  obtain ⟨bytes, -, rfl⟩ := Option.map_eq_some_iff.mp hdigest
  exact Sha1.isName_hexDigest bytes

/-- Why an absolute root has no place that a file could be named after. -/
inductive IsUnnamable (root : Text) : Breakdown → Prop where
  /-- The system cannot be asked about one of its names. -/
  | name {cause : Breakdown} (hfault : (Path.ofText root).fault? = some cause) :
      IsUnnamable root cause
  /-- All its names are possible, but a stray byte is left in its place. -/
  | place {c : CodePoint} (hfault : (Path.ofText root).fault? = none)
      (hmem : c ∈ (Path.ofLocation ((Path.ofText root).resolve [])).written)
      (hsurrogate : c.isSurrogate = true) : IsUnnamable root .surrogateInPath

theorem fileName_eq_error_iff (habsolute : (Path.ofText root).isAbsolute = true) :
    fileName environment root = .error cause ↔ IsUnnamable root cause := by
  rw [fileName, Environment.lookUp_of_isAbsolute environment habsolute]
  cases hfault : (Path.ofText root).fault? with
  | some breakdown =>
    constructor
    · intro h
      cases h
      exact .name hfault
    · rintro (hother | hother)
      · rw [hfault] at hother
        cases hother
        rfl
      · rw [hfault] at hother
        cases hother
  | none =>
    dsimp only
    constructor
    · intro h
      split at h
      next hdigest =>
        cases h
        obtain ⟨c, hmem, hsurrogate⟩ := List.any_eq_true.mp (digest?_eq_none_iff.mp hdigest)
        exact .place hfault hmem hsurrogate
      · cases h
    · rintro (hother | ⟨-, hmem, hsurrogate⟩)
      · rw [hfault] at hother
        cases hother
      · rw [digest?_eq_none_iff.mpr (List.any_eq_true.mpr ⟨_, hmem, hsurrogate⟩)]

theorem rootPlace_of_isAbsolute (habsolute : (Path.ofText root).isAbsolute = true)
    (hnamable : ∀ cause, ¬ IsUnnamable root cause) (environment : Environment) :
    rootPlace environment root = .ok ((Path.ofText root).resolve []) := by
  have hlookUp := Environment.lookUp_of_isAbsolute environment habsolute
  cases hfault : (Path.ofText root).fault? with
  | some cause => exact absurd (.name hfault) (hnamable cause)
  | none =>
    rw [hfault] at hlookUp
    have hplain : ¬ (Path.ofLocation ((Path.ofText root).resolve [])).written.any
        CodePoint.isSurrogate = true := by
      intro hany
      obtain ⟨c, hmem, hsurrogate⟩ := List.any_eq_true.mp hany
      exact hnamable _ (.place hfault hmem hsurrogate)
    rw [rootPlace, hlookUp]
    exact if_neg hplain

end ColorCache

end ShellPrompt
