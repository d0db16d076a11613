import TypeCatalog.Outcome

/-! # Gathered outcomes

Outcomes that have something to report are gathered in order: all values when none of them is an
error, else all errors. What has nothing to report leaves no trace, whether it succeeded or failed,
so the outcomes are all accounted for just when no failure is silent and, where nothing fails, no
success is (`TypeCatalog.losesNothing_iff`).
-/

namespace TypeCatalog

variable {ε α : Type}

namespace Outcome

def hasFailed : Except (Option ε) (Option α) → Bool
  | .ok _ => false
  | .error _ => true

/-- Whether an outcome carries a value or an error. -/
def hasReport : Except (Option ε) (Option α) → Bool
  | .ok value => value.isSome
  | .error error => error.isSome

end Outcome

open Outcome

/-! ## Outcomes with a report -/

/-- Values in order stand for the successes that carry one. -/
theorem map_valuesOf (outcomes : List (Except (Option ε) (Option α))) :
    ((valuesOf outcomes).map fun value => Except.ok (some value)) =
      (outcomes.filter hasReport).filter fun outcome => !hasFailed outcome := by
  induction outcomes with
  | nil => rfl
  | cons outcome rest ih =>
      rcases outcome with (_ | error) | (_ | value)
      · exact ih
      · exact ih
      · exact ih
      · exact congrArg (Except.ok (some value) :: ·) ih

/-- Errors in order stand for the failures that carry one. -/
theorem map_errorsOf (outcomes : List (Except (Option ε) (Option α))) :
    ((errorsOf outcomes).map fun error => Except.error (some error)) =
      (outcomes.filter hasReport).filter hasFailed := by
  induction outcomes with
  | nil => rfl
  | cons outcome rest ih =>
      rcases outcome with (_ | error) | (_ | value)
      · exact ih
      · exact congrArg (Except.error (some error) :: ·) ih
      · exact ih
      · exact ih

variable {outcomes : List (Except (Option ε) (Option α))}

theorem errorsOf_eq_nil_iff : errorsOf outcomes = [] ↔
    ∀ outcome ∈ outcomes.filter hasReport, hasFailed outcome = false := by
  rw [← List.map_eq_nil_iff (f := fun error => (Except.error (some error) :
    Except (Option ε) (Option α))), map_errorsOf, List.filter_eq_nil_iff]
  simp only [Bool.not_eq_true]

/-- Gathering succeeds with the values of the outcomes that have something to report, when these
are all successes. -/
theorem gather_eq_ok_iff {values : List α} : gather outcomes = .ok values ↔
    outcomes.filter hasReport = values.map fun value => .ok (some value) := by
  constructor
  · intro gathered
    rw [gather] at gathered
    split at gathered
    · rename_i flawless
      have successes : ((outcomes.filter hasReport).filter fun outcome => !hasFailed outcome) =
          outcomes.filter hasReport := by
        rw [List.filter_eq_self]
        simpa using errorsOf_eq_nil_iff.mp flawless
      rw [← Except.ok.inj gathered, map_valuesOf, successes]
    · simp at gathered
  · intro reports
    have flawless : errorsOf outcomes = [] := by
      rw [errorsOf_eq_nil_iff, reports]
      exact List.forall_mem_map.mpr fun _ _ => rfl
    have same : ((valuesOf outcomes).map fun value => (Except.ok (some value) :
        Except (Option ε) (Option α))) = values.map fun value => .ok (some value) := by
      rw [map_valuesOf, reports, List.filter_eq_self]
      exact List.forall_mem_map.mpr fun _ _ => rfl
    rw [gather, flawless]
    exact congrArg Except.ok ((List.map_inj_right fun _ _ equal =>
      Option.some.inj (Except.ok.inj equal)).mp same)

/-- Gathering fails with the errors of the outcomes that have something to report, when there is
one. -/
theorem gather_eq_error_iff {errors : List ε} : gather outcomes = .error errors ↔
    errors ≠ [] ∧ (outcomes.filter hasReport).filter hasFailed =
      errors.map fun error => .error (some error) := by
  rw [← map_errorsOf, gather,
    List.map_inj_right fun _ _ equal => Option.some.inj (Except.error.inj equal)]
  split
  · rename_i flawless
    rw [flawless]
    simp [eq_comm]
  · rename_i some_
    constructor
    · intro gathered
      rw [← Except.error.inj gathered]
      exact ⟨some_, rfl⟩
    · rintro ⟨_, same⟩
      rw [same]

/-! ## Nothing lost -/

/-- All outcomes are accounted for: gathering succeeds when all of them do, with the value of each
in order, and otherwise fails with the errors of those that failed. -/
structure LosesNothing (outcomes : List (Except (Option ε) (Option α))) : Prop where
  succeeds_iff : (∃ values, gather outcomes = .ok values) ↔
    ∀ outcome ∈ outcomes, hasFailed outcome = false
  values : ∀ values, gather outcomes = .ok values →
    outcomes = (values.map fun value => .ok (some value)) ∧ values.length = outcomes.length
  errors : ∀ errors, gather outcomes = .error errors →
    outcomes.filter hasFailed = errors.map fun error => .error (some error)

theorem exists_gather_eq_ok_iff : (∃ values, gather outcomes = .ok values) ↔
    ∀ outcome ∈ outcomes, hasReport outcome = true → hasFailed outcome = false := by
  have flawless : (∃ values, gather outcomes = .ok values) ↔ errorsOf outcomes = [] := by
    rw [gather]
    split
    · rename_i none_
      simp [none_]
    · rename_i some_
      simpa using some_
  rw [flawless, errorsOf_eq_nil_iff]
  simp only [List.mem_filter, and_imp]

/-- Where all outcomes are accounted for, no failure is silent, nor a success where nothing fails. -/
theorem LosesNothing.noSilence (accounted : LosesNothing outcomes) : .error none ∉ outcomes ∧
    ((∀ outcome ∈ outcomes, hasFailed outcome = false) → .ok none ∉ outcomes) := by
  refine ⟨fun silent => ?_, fun successes silent => ?_⟩
  · cases gathered : gather outcomes with
    | ok all =>
        exact absurd (accounted.succeeds_iff.mp ⟨all, gathered⟩ _ silent) (by simp [hasFailed])
    | error all =>
        have failed : .error none ∈ outcomes.filter hasFailed := List.mem_filter.mpr ⟨silent, rfl⟩
        rw [accounted.errors all gathered] at failed
        simp at failed
  · obtain ⟨all, gathered⟩ := accounted.succeeds_iff.mpr successes
    rw [(accounted.values all gathered).1] at silent
    simp at silent

theorem losesNothing_of_noSilence (noSilentFailure : .error none ∉ outcomes)
    (noSilentSuccess : (∀ outcome ∈ outcomes, hasFailed outcome = false) → .ok none ∉ outcomes) :
    LosesNothing outcomes := by
  have failureReports : ∀ outcome ∈ outcomes, hasFailed outcome = true →
      hasReport outcome = true := by
    rintro ((_ | error) | value) listed failed
    · exact absurd listed noSilentFailure
    · rfl
    · simp [hasFailed] at failed
  have succeeds_iff : (∃ values, gather outcomes = .ok values) ↔
      ∀ outcome ∈ outcomes, hasFailed outcome = false := by
    rw [exists_gather_eq_ok_iff]
    refine forall₂_congr fun outcome listed => ?_
    cases failed : hasFailed outcome <;> simp [failureReports outcome listed, failed]
  refine ⟨succeeds_iff, fun values gathered => ?_, fun errors gathered => ?_⟩
  · have successes := succeeds_iff.mp ⟨values, gathered⟩
    have reports : outcomes.filter hasReport = outcomes := by
      rw [List.filter_eq_self]
      rintro (error | (_ | value)) listed
      · exact absurd (successes _ listed) (by simp [hasFailed])
      · exact absurd listed (noSilentSuccess successes)
      · rfl
    have whole := gather_eq_ok_iff.mp gathered
    rw [reports] at whole
    exact ⟨whole, by rw [whole, List.length_map]⟩
  · rw [← (gather_eq_error_iff.mp gathered).2, List.filter_filter]
    refine List.filter_congr fun outcome listed => ?_
    cases failed : hasFailed outcome <;> simp [failureReports outcome listed, failed]

/-- **Nothing lost.** Gathering a list of outcomes gives the values of those with something to
report when these are all successes, and otherwise the errors of those that failed, always in order.
So all outcomes are accounted for just when no failure is silent and, where nothing fails, no success
is. -/
theorem losesNothing_iff (outcomes : List (Except (Option ε) (Option α))) :
    (∀ values, gather outcomes = .ok values ↔
      outcomes.filter hasReport = values.map fun value => .ok (some value)) ∧
    (∀ errors, gather outcomes = .error errors ↔ errors ≠ [] ∧
      (outcomes.filter hasReport).filter hasFailed =
        errors.map fun error => .error (some error)) ∧
    (LosesNothing outcomes ↔ .error none ∉ outcomes ∧
      ((∀ outcome ∈ outcomes, hasFailed outcome = false) → .ok none ∉ outcomes)) :=
  ⟨fun _ => gather_eq_ok_iff, fun _ => gather_eq_error_iff, LosesNothing.noSilence,
    fun silence => losesNothing_of_noSilence silence.1 silence.2⟩

/-- Outcomes can be lost: a failure without an error counts as nothing at all, and so does a success
without a value. -/
theorem silent_outcomes_are_lost :
    gather [(.error none : Except (Option String) (Option Int))] = .ok [] ∧
    ¬ LosesNothing [(.error none : Except (Option String) (Option Int))] ∧
    gather [.ok none, (.ok (some 1) : Except (Option String) (Option Int))] = .ok [1] ∧
    ¬ LosesNothing [.ok none, (.ok (some 1) : Except (Option String) (Option Int))] := by
  refine ⟨rfl, fun ⟨succeeds_iff, _, _⟩ => ?_, rfl, fun ⟨_, values, _⟩ => ?_⟩
  · exact absurd (succeeds_iff.mp ⟨[], rfl⟩ _ (List.mem_singleton.mpr rfl)) (by decide)
  · exact absurd (values [1] rfl).2 (by decide)

end TypeCatalog
