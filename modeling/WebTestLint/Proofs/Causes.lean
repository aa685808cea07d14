import Mathlib.Data.List.Forall2
import WebTestLint.Report.Basic
import WebTestLint.Proofs.History

/-!
The causes of a failure, as a list. The list has all that the failure has, so failures can be compared,
changed and reported through their chains of links.
-/

namespace WebTestLint

structure Link.Agrees (link other : Link) : Prop where
  subject : link.subject = other.subject
  layer : link.layer = other.layer
  reason : link.reason = other.reason
  context : link.context = other.context

theorem Link.agrees_iff_eq (link other : Link) : link.Agrees other ↔ link = other := by
  constructor
  · rintro ⟨subject, layer, reason, context⟩
    cases link
    cases other
    simp_all
  · rintro rfl
    exact ⟨rfl, rfl, rfl, rfl⟩

namespace Failure

theorem chain_ne_nil (failure : Failure) : failure.chain ≠ [] := by
  cases failure <;> simp [chain]

theorem eq_of_chain_eq {failure other : Failure} (same : failure.chain = other.chain) :
    failure = other := by
  induction failure generalizing other with
  | root link =>
      cases other with
      | root link' => simpa [chain] using same
      | caused link' cause' => exact absurd (List.cons.inj same).2.symm cause'.chain_ne_nil
  | caused link cause ih =>
      cases other with
      | root link' => exact absurd (List.cons.inj same).2 cause.chain_ne_nil
      | caused link' cause' =>
          obtain ⟨rfl, below⟩ := List.cons.inj same
          rw [ih below]

theorem eq_iff_forall₂_agrees (failure other : Failure) :
    failure = other ↔ List.Forall₂ Link.Agrees failure.chain other.chain := by
  have agrees : Link.Agrees = Eq := by
    funext link other
    exact propext (link.agrees_iff_eq other)
  rw [agrees, List.forall₂_eq_eq_eq]
  exact ⟨fun same => by rw [same], eq_of_chain_eq⟩

def descents : Failure → List Failure
  | root link => [root link]
  | caused link cause => caused link cause :: cause.descents

theorem map_link_descents (failure : Failure) : failure.descents.map link = failure.chain := by
  induction failure with
  | root link => rfl
  | caused link cause ih => rw [descents, List.map_cons, ih, chain, Failure.link]

theorem head?_descents (failure : Failure) : failure.descents.head? = some failure := by
  cases failure <;> rfl

theorem getElem?_descents_succ (failure : Failure) (depth : Nat) :
    failure.descents[depth + 1]? = failure.descents[depth]?.bind cause? := by
  induction failure generalizing depth with
  | root link => cases depth <;> rfl
  | caused link cause ih =>
      cases depth with
      | zero =>
          rw [descents, List.getElem?_cons_succ, ← List.head?_eq_getElem?, head?_descents]
          rfl
      | succ depth => exact ih depth

theorem getLast?_descents (failure : Failure) : failure.descents.getLast? = some failure.rootCause := by
  induction failure with
  | root link => rfl
  | caused link cause ih => rw [descents, List.getLast?_cons, ih, rootCause, Option.getD_some]

theorem cause?_rootCause (failure : Failure) : failure.rootCause.cause? = none := by
  induction failure with
  | root link => rfl
  | caused link cause ih => exact ih

end Failure

namespace Report

structure Entry.Tells (link : Link) (entry : Entry) : Prop where
  layer : Layer.ofCode? entry.layer = some link.layer
  reason : Reason.ofCode? entry.reason = some link.reason
  subject : entry.subject = link.subject.describe
  context : List.Forall₂ (fun (detail : String × Detail) (shown : String × String) =>
    shown.1 = detail.1 ∧ shown.2 = detail.2.show) link.context entry.context

theorem Entry.tells_ofLink (link : Link) : Tells link (ofLink link) where
  layer := Layer.ofCode?_code link.layer
  reason := Reason.ofCode?_code link.reason
  subject := rfl
  context := List.forall₂_map_right_iff.mpr (List.forall₂_same.mpr fun _ _ => ⟨rfl, rfl⟩)

theorem forall₂_tells_entries (failure : Failure) :
    List.Forall₂ Entry.Tells failure.chain (entries failure) :=
  List.forall₂_map_right_iff.mpr (List.forall₂_same.mpr fun link _ => Entry.tells_ofLink link)

end Report

/-- A chain is as good as its failure. Failures are equal just if their chains agree link by link; a cause
is put in place of any earlier one, even a copy of the failure itself, and brings its own root cause along;
and a report has an entry for each link. -/
theorem Failure.chain_represents (failure other cause : Failure) :
    ((failure == other) = true ↔ List.Forall₂ Link.Agrees failure.chain other.chain) ∧
    (failure.causedBy cause).chain = failure.link :: cause.chain ∧
    (failure.causedBy cause).rootCause = cause.rootCause ∧
    (failure.causedBy other).causedBy cause = failure.causedBy cause ∧
    failure.chain = failure.descents.map link ∧
    (failure.descents.head? = some failure ∧
      ∀ depth, failure.descents[depth + 1]? = failure.descents[depth]?.bind cause?) ∧
    failure.descents.getLast? = some failure.rootCause ∧ failure.rootCause.cause? = none ∧
    List.Forall₂ Report.Entry.Tells failure.chain (Report.entries failure) := by
  refine ⟨?_, rfl, rfl, rfl, ?_, ⟨failure.head?_descents, failure.getElem?_descents_succ⟩,
    failure.getLast?_descents, failure.cause?_rootCause, Report.forall₂_tells_entries failure⟩
  · rw [beq_iff_eq, eq_iff_forall₂_agrees]
  · rw [map_link_descents]

end WebTestLint
