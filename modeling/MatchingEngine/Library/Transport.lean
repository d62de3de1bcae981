import Mathlib.Logic.Basic

/-!
# Computations that rename their results

Two fallible computations that fail together, and whose results differ by a
renaming: the second is the image of the first.  The rules follow the structure of
a computation, and carry along a property of the result.
-/

namespace MatchingEngine

/-- The second computation is the image of the first, whose result has a property. -/
structure Transports
    {ε α β : Type} (image : α → β) (property : α → Prop)
    (source : Except ε α) (target : Except ε β) : Prop where
  equal : target = source.map image
  holds : ∀ value, source = .ok value → property value

namespace Transports

variable {ε α β γ δ : Type} {image : α → β} {property : α → Prop}
variable {image' : γ → δ} {property' : γ → Prop}

@[simp] theorem map_ok (image : α → β) (value : α) :
    (Except.ok value : Except ε α).map image = .ok (image value) := rfl

@[simp] theorem map_error (image : α → β) (fault : ε) :
    (Except.error fault : Except ε α).map image = .error fault := rfl

/-- A sequence after a renamed result. -/
@[simp] theorem map_then
    (image : α → β) (source : Except ε α) (proceed : β → Except ε γ) :
    (source.map image >>= proceed) = source >>= fun value => proceed (image value) := by
  cases source <;> rfl

/-- Renaming the result of a sequence renames the result of its last step. -/
@[simp] theorem then_map
    (image : β → γ) (source : Except ε α) (proceed : α → Except ε β) :
    (source >>= proceed).map image = source >>= fun value => (proceed value).map image := by
  cases source <;> rfl

@[simp] theorem ite_map
    (image : α → β) (test : Prop) [Decidable test] (source otherwise : Except ε α) :
    (if test then source else otherwise).map image =
      if test then source.map image else otherwise.map image :=
  apply_ite _ _ _ _

@[simp] theorem map_map (image : α → β) (further : β → γ) (source : Except ε α) :
    (source.map image).map further = source.map fun value => further (image value) := by
  cases source <;> rfl

/-- A sequence is renamed when both of its steps are. -/
theorem sequence
    {source : Except ε α} {target : Except ε β}
    {proceed : α → Except ε γ} {proceed' : β → Except ε δ}
    (first : target = source.map image)
    (second : ∀ value, proceed' (image value) = (proceed value).map image') :
    (target >>= proceed') = (source >>= proceed).map image' := by
  rw [first, map_then, then_map]
  exact bind_congr second

/-- A sequence whose first step depends on a test. -/
theorem branch_sequence
    {test test' : Prop} [Decidable test] [Decidable test']
    {source otherwise : Except ε α} {target otherwise' : Except ε β}
    {proceed : α → Except ε γ} {proceed' : β → Except ε δ}
    (agree : test' ↔ test)
    (whenTrue : target = source.map image)
    (whenFalse : otherwise' = otherwise.map image)
    (second : ∀ value, proceed' (image value) = (proceed value).map image') :
    (if test' then target >>= proceed' else otherwise' >>= proceed') =
      (if test then source >>= proceed else otherwise >>= proceed).map image' := by
  rw [ite_map]
  exact if_congr agree (sequence whenTrue second) (sequence whenFalse second)

/-- A renaming that undoes itself can be moved to the other side. -/
theorem eq_map_of_eq_map
    {image : α → α} {source target : Except ε α}
    (involutive : ∀ value, image (image value) = value)
    (renamed : source = target.map image) :
    target = source.map image := by
  subst renamed
  cases target with
  | error fault => rfl
  | ok value => rw [map_ok, map_ok, involutive]

theorem ok {value : α} {renamed : β} (same : renamed = image value) (holds : property value) :
    Transports image property (.ok value : Except ε α) (.ok renamed) where
  equal := by rw [same, map_ok]
  holds := by
    rintro _ ⟨rfl⟩
    exact holds

theorem error (fault : ε) :
    Transports image property (.error fault : Except ε α) (.error fault) where
  equal := rfl
  holds := by rintro _ ⟨⟩

/-- One computation after another. -/
theorem bind
    {source : Except ε α} {target : Except ε β}
    {proceed : α → Except ε γ} {proceed' : β → Except ε δ}
    (first : Transports image property source target)
    (second : ∀ value, source = .ok value → property value →
      Transports image' property' (proceed value) (proceed' (image value))) :
    Transports image' property' (source >>= proceed) (target >>= proceed') := by
  obtain ⟨rfl, holds⟩ := first
  cases source with
  | error fault => exact error fault
  | ok value => exact second value rfl (holds value rfl)

theorem of_equal {source : Except ε α} {target : Except ε β} (equal : target = source.map image) :
    Transports image (fun _ => True) source target :=
  ⟨equal, fun _ _ => trivial⟩

/-- A computation without anything to rename. -/
theorem refl (source : Except ε α) : Transports id (fun _ => True) source source :=
  of_equal (by cases source <;> rfl)

/-- A branch on tests that agree. -/
theorem ite
    {test test' : Prop} [Decidable test] [Decidable test']
    {source otherwise : Except ε α} {target otherwise' : Except ε β}
    (agree : test' ↔ test)
    (whenTrue : test → Transports image property source target)
    (whenFalse : ¬ test → Transports image property otherwise otherwise') :
    Transports image property (if test then source else otherwise)
      (if test' then target else otherwise') := by
  by_cases holds : test
  · rw [if_pos holds, if_pos (agree.mpr holds)]
    exact whenTrue holds
  · rw [if_neg holds, if_neg fun holds' => holds (agree.mp holds')]
    exact whenFalse holds

/-- A sequence whose first step depends on tests that agree. -/
theorem branch
    {test test' : Prop} [Decidable test] [Decidable test']
    {source otherwise : Except ε α} {target otherwise' : Except ε β}
    {proceed : α → Except ε γ} {proceed' : β → Except ε δ}
    (agree : test' ↔ test)
    (whenTrue : Transports image property source target)
    (whenFalse : Transports image property otherwise otherwise')
    (second : ∀ value, property value →
      Transports image' property' (proceed value) (proceed' (image value))) :
    Transports image' property' (if test then source >>= proceed else otherwise >>= proceed)
      (if test' then target >>= proceed' else otherwise' >>= proceed') :=
  ite agree (fun _ => bind whenTrue fun value _ => second value)
    fun _ => bind whenFalse fun value _ => second value

end Transports

end MatchingEngine
