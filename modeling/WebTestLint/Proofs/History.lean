import Mathlib.Data.List.Induction
import WebTestLint.Proofs.Keyed
import WebTestLint.Verdict.Basic

/-!
How a failure comes by its parts. It starts with a subject, a layer and a reason, and is then told details
and causes in any order; what it holds in the end is what it was told last.
-/

namespace WebTestLint

namespace Context

theorem set_eq (context : Context) (key : String) (detail : Detail) :
    context.set key detail = Keyed.set key detail context := by
  induction context with
  | nil => rfl
  | cons entry context ih => rw [set, Keyed.set, ih]

theorem get?_eq_lookup (context : Context) (key : String) : context.get? key = context.lookup key := by
  induction context with
  | nil => rfl
  | cons entry context ih =>
      rw [Keyed.lookup_cons, ← ih, get?, get?, List.find?_cons]
      by_cases same : key = entry.1
      · simp [same]
      · simp [same, beq_eq_false_iff_ne.mpr (Ne.symm same)]

theorem keys_set (context : Context) (key : String) (detail : Detail) :
    (context.set key detail).map Prod.fst =
      if key ∈ context.map Prod.fst then context.map Prod.fst else context.map Prod.fst ++ [key] := by
  rw [set_eq, Keyed.keys_set]

theorem get?_set (context : Context) (key other : String) (detail : Detail) :
    (context.set key detail).get? other = if other = key then some detail else context.get? other := by
  rw [get?_eq_lookup, get?_eq_lookup, set_eq, Keyed.lookup_set]

end Context

namespace Failure

@[simp] theorem link_setContext (failure : Failure) (key : String) (detail : Detail) :
    (failure.setContext key detail).link =
      { failure.link with context := failure.link.context.set key detail } := by
  cases failure <;> rfl

@[simp] theorem cause?_setContext (failure : Failure) (key : String) (detail : Detail) :
    (failure.setContext key detail).cause? = failure.cause? := by
  cases failure <;> rfl

@[simp] theorem link_causedBy (failure cause : Failure) : (failure.causedBy cause).link = failure.link := rfl

@[simp] theorem cause?_causedBy (failure cause : Failure) : (failure.causedBy cause).cause? = some cause := rfl

inductive Amendment where
  | context (key : String) (detail : Detail)
  | cause (cause : Failure)

namespace Amendment

def key? : Amendment → Option String
  | context key _ => some key
  | cause _ => none

def detail? (key : String) : Amendment → Option Detail
  | context other detail => if key = other then some detail else none
  | cause _ => none

def cause? : Amendment → Option Failure
  | context _ _ => none
  | cause failure => some failure

end Amendment

def amend (failure : Failure) : Amendment → Failure
  | .context key detail => failure.setContext key detail
  | .cause cause => failure.causedBy cause

def amended (failure : Failure) (amendments : List Amendment) : Failure := amendments.foldl amend failure

def keys (failure : Failure) : List String := failure.link.context.map Prod.fst

/-- What a failure holds of the amendments that have made it. -/
structure Holds (amendments : List Amendment) (failure : Failure) : Prop where
  keys_iff : ∀ key, key ∈ failure.keys ↔ key ∈ amendments.filterMap Amendment.key?
  inOrder : failure.keys.Pairwise fun earlier later =>
    (amendments.filterMap Amendment.key?).idxOf earlier < (amendments.filterMap Amendment.key?).idxOf later
  last : ∀ key, failure.link.context.get? key = (amendments.filterMap (Amendment.detail? key)).getLast?
  cause : failure.cause? = (amendments.filterMap Amendment.cause?).getLast?

variable {amendments : List Amendment} {failure : Failure}

theorem holds_of (subject : Subject) (layer : Layer) (reason : Reason) :
    (of subject layer reason).Holds [] where
  keys_iff := by simp [keys, of, link]
  inOrder := List.Pairwise.nil
  last _ := rfl
  cause := rfl

theorem keys_setContext (failure : Failure) (key : String) (detail : Detail) :
    (failure.setContext key detail).keys =
      if key ∈ failure.keys then failure.keys else failure.keys ++ [key] := by
  rw [keys, link_setContext, Context.keys_set]
  rfl

theorem Holds.pairwise_setContext (holds : failure.Holds amendments) (key : String) (detail : Detail) :
    (failure.setContext key detail).keys.Pairwise fun earlier later =>
      (amendments.filterMap Amendment.key? ++ [key]).idxOf earlier <
        (amendments.filterMap Amendment.key? ++ [key]).idxOf later := by
  have kept : failure.keys.Pairwise fun earlier later =>
      (amendments.filterMap Amendment.key? ++ [key]).idxOf earlier <
        (amendments.filterMap Amendment.key? ++ [key]).idxOf later := by
    refine holds.inOrder.imp_of_mem ?_
    intro earlier later first second before
    rwa [List.idxOf_append_of_mem ((holds.keys_iff _).mp first),
      List.idxOf_append_of_mem ((holds.keys_iff _).mp second)]
  rw [keys_setContext]
  split
  · exact kept
  · rename_i fresh
    rw [holds.keys_iff] at fresh
    refine List.pairwise_append.mpr ⟨kept, List.pairwise_singleton _ _, ?_⟩
    intro earlier first later second
    obtain rfl := List.mem_singleton.mp second
    have told := (holds.keys_iff _).mp first
    rw [List.idxOf_append_of_mem told, List.idxOf_append_of_notMem fresh, List.idxOf_cons_self,
      Nat.add_zero]
    exact List.idxOf_lt_length_of_mem told

theorem Holds.setContext (holds : failure.Holds amendments) (key : String) (detail : Detail) :
    (failure.setContext key detail).Holds (amendments ++ [.context key detail]) where
  keys_iff other := by
    rw [keys_setContext, List.filterMap_append, List.mem_append, ← holds.keys_iff]
    split
    · rename_i present
      simp only [List.filterMap_cons, Amendment.key?, List.filterMap_nil, List.mem_singleton, iff_self_or]
      rintro rfl
      exact present
    · simp [Amendment.key?]
  inOrder := by
    rw [List.filterMap_append]
    exact holds.pairwise_setContext key detail
  last other := by
    rw [link_setContext, Context.get?_set, List.filterMap_append, List.getLast?_append, holds.last]
    by_cases same : other = key <;> simp [same, Amendment.detail?]
  cause := by
    rw [cause?_setContext, holds.cause, List.filterMap_append]
    simp [Amendment.cause?]

theorem Holds.causedBy (holds : failure.Holds amendments) (cause : Failure) :
    (failure.causedBy cause).Holds (amendments ++ [.cause cause]) := by
  have keys : (amendments ++ [Amendment.cause cause]).filterMap Amendment.key? =
      amendments.filterMap Amendment.key? := by
    simp [Amendment.key?]
  constructor
  · rw [keys]
    exact holds.keys_iff
  · rw [keys]
    exact holds.inOrder
  · intro key
    rw [link_causedBy, holds.last, List.filterMap_append]
    simp [Amendment.detail?]
  · rw [cause?_causedBy, List.filterMap_append, List.getLast?_append]
    rfl

theorem Holds.amend (holds : failure.Holds amendments) (amendment : Amendment) :
    (failure.amend amendment).Holds (amendments ++ [amendment]) := by
  cases amendment with
  | context key detail => exact holds.setContext key detail
  | cause cause => exact holds.causedBy cause

theorem holds_amended (subject : Subject) (layer : Layer) (reason : Reason)
    (amendments : List Amendment) : ((of subject layer reason).amended amendments).Holds amendments := by
  induction amendments using List.reverseRecOn with
  | nil => exact holds_of subject layer reason
  | append_singleton amendments amendment ih =>
      rw [amended, List.foldl_concat]
      exact ih.amend amendment

theorem link_amend (failure : Failure) (amendment : Amendment) :
    (failure.amend amendment).link =
      { failure.link with context := (failure.amend amendment).link.context } := by
  cases amendment with
  | context key detail => rw [amend, link_setContext]
  | cause cause => rfl

theorem link_amended (failure : Failure) (amendments : List Amendment) :
    (failure.amended amendments).link =
      { failure.link with context := (failure.amended amendments).link.context } := by
  induction amendments generalizing failure with
  | nil => rfl
  | cons amendment amendments ih =>
      have step := link_amend failure amendment
      rw [amended, List.foldl_cons, ← amended, ih, step]

theorem Holds.nodup_keys (holds : failure.Holds amendments) : failure.keys.Nodup := by
  refine holds.inOrder.imp ?_
  rintro earlier later before rfl
  exact Nat.lt_irrefl _ before

theorem Holds.last_of_mem (holds : failure.Holds amendments) {entry : String × Detail}
    (member : entry ∈ failure.link.context) :
    (amendments.filterMap (Amendment.detail? entry.1)).getLast? = some entry.2 := by
  rw [← holds.last, Context.get?_eq_lookup]
  exact Keyed.lookup_of_mem holds.nodup_keys member

/-- The context of a failure is an ordered map, whatever the failure has been told and in which order. No
key is in it twice, the keys stand in the order in which they were first set, and each has the detail that
was set last. The cause is the last one named, and the rest stays as it was at the start. -/
theorem amended_is_ordered_map (subject : Subject) (layer : Layer) (reason : Reason)
    (amendments : List Amendment) :
    let failure := (of subject layer reason).amended amendments
    failure.keys.Nodup ∧ failure.Holds amendments ∧
    (∀ entry ∈ failure.link.context,
      (amendments.filterMap (Amendment.detail? entry.1)).getLast? = some entry.2) ∧
    failure.link.subject = subject ∧ failure.link.layer = layer ∧ failure.link.reason = reason := by
  intro failure
  have holds : failure.Holds amendments := holds_amended subject layer reason amendments
  have kept : failure.link = { (of subject layer reason).link with context := failure.link.context } :=
    link_amended _ _
  refine ⟨holds.nodup_keys, holds, fun _ => holds.last_of_mem, ?_⟩
  rw [kept]
  exact ⟨rfl, rfl, rfl⟩

example :
    ((of (.value "$page.foo") .value .valuePropertyInvalid).amended
      [.context "a" (.text "1"), .context "b" (.text "2"), .context "a" (.text "3")]).link.context =
        [("a", .text "3"), ("b", .text "2")] := by
  decide

end Failure

end WebTestLint
