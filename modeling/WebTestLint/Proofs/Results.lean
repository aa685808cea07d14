import Mathlib.Data.List.Forall2

/-!
Results and traversals. What a result that succeeds or fails says about the results it is made from, and
what a traversal of a list says about its items.
-/

namespace WebTestLint

variable {ε ε' α β : Type}

theorem map_eq_ok_iff {f : α → β} {result : Except ε α} {value : β} :
    result.map f = .ok value ↔ ∃ before, result = .ok before ∧ f before = value := by
  cases result with
  | error fault => simp [Except.map]
  | ok before => simp [Except.map]

theorem mapError_eq_ok_iff {f : ε → ε'} {result : Except ε α} {value : α} :
    result.mapError f = .ok value ↔ result = .ok value := by
  cases result with
  | error fault => simp [Except.mapError]
  | ok before => simp [Except.mapError]

theorem bind_eq_ok_iff {f : α → Except ε β} {result : Except ε α} {value : β} :
    (result >>= f) = .ok value ↔ ∃ before, result = .ok before ∧ f before = .ok value := by
  cases result with
  | error fault => simp [bind, Except.bind]
  | ok before => simp [bind, Except.bind]

theorem exists_of_forall₂ {R : α → β → Prop} {items : List α} {results : List β}
    (each : List.Forall₂ R items results) {result : β} (listed : result ∈ results) :
    ∃ item ∈ items, R item result := by
  induction each with
  | nil => simp at listed
  | cons first _ ih =>
      rcases List.mem_cons.mp listed with rfl | later
      · exact ⟨_, List.mem_cons_self, first⟩
      · obtain ⟨item, found, related⟩ := ih later
        exact ⟨item, List.mem_cons_of_mem _ found, related⟩

theorem mapM_eq_ok_iff (read : α → Except ε β) (items : List α) (results : List β) :
    items.mapM read = .ok results ↔
      List.Forall₂ (fun item result => read item = .ok result) items results := by
  induction items generalizing results with
  | nil => cases results <;> simp [pure, Except.pure]
  | cons item items ih =>
      rw [List.mapM_cons]
      cases first : read item with
      | error fault => cases results <;> simp [first, bind, Except.bind]
      | ok result =>
          cases rest : items.mapM read with
          | error fault => cases results <;> simp [first, ← ih, rest, bind, Except.bind]
          | ok below => cases results <;> simp [first, ← ih, rest, bind, Except.bind, pure, Except.pure]

theorem exists_mapM_eq_ok_iff (read : α → Except ε β) (items : List α) :
    (∃ results, items.mapM read = .ok results) ↔ ∀ item ∈ items, ∃ result, read item = .ok result := by
  simp only [mapM_eq_ok_iff]
  constructor
  · rintro ⟨results, each⟩
    induction each with
    | nil => simp
    | cons first _ ih => exact List.forall_mem_cons.mpr ⟨⟨_, first⟩, ih⟩
  · intro each
    induction items with
    | nil => exact ⟨[], .nil⟩
    | cons item items ih =>
        obtain ⟨⟨result, first⟩, others⟩ := List.forall_mem_cons.mp each
        obtain ⟨results, rest⟩ := ih others
        exact ⟨result :: results, .cons first rest⟩

theorem mapM_eq_error_iff (read : α → Except ε β) (items : List α) (fault : ε) :
    items.mapM read = .error fault ↔ ∃ before item after, items = before ++ item :: after ∧
      (∀ other ∈ before, ∃ result, read other = .ok result) ∧ read item = .error fault := by
  induction items with
  | nil => simp [pure, Except.pure]
  | cons first items ih =>
      rw [List.mapM_cons]
      cases found : read first with
      | error other =>
          constructor
          · intro failed
            obtain rfl : other = fault := Except.error.inj failed
            exact ⟨[], first, items, rfl, by simp, found⟩
          · rintro ⟨before, item, after, split, passed, failed⟩
            cases before with
            | nil =>
                obtain ⟨rfl, rfl⟩ := List.cons.inj split
                obtain rfl := Except.error.inj (found.symm.trans failed)
                rfl
            | cons other' before =>
                obtain ⟨rfl, rfl⟩ := List.cons.inj split
                obtain ⟨result, passed⟩ := passed first List.mem_cons_self
                simp [found] at passed
      | ok result =>
          have later : (do let result ← Except.ok result; let results ← items.mapM read
                           pure (result :: results)) = .error fault ↔ items.mapM read = .error fault := by
            cases items.mapM read <;> simp [bind, Except.bind, pure, Except.pure]
          rw [later, ih]
          constructor
          · rintro ⟨before, item, after, rfl, passed, failed⟩
            exact ⟨first :: before, item, after, rfl,
              List.forall_mem_cons.mpr ⟨⟨result, found⟩, passed⟩, failed⟩
          · rintro ⟨before, item, after, split, passed, failed⟩
            cases before with
            | nil =>
                obtain ⟨rfl, rfl⟩ := List.cons.inj split
                simp [found] at failed
            | cons other before =>
                obtain ⟨rfl, rfl⟩ := List.cons.inj split
                exact ⟨before, item, after, rfl, (List.forall_mem_cons.mp passed).2, failed⟩

variable {P : ε → Prop}

def FailsWith (P : ε → Prop) (result : Except ε α) : Prop := ∀ fault, result = .error fault → P fault

@[simp] theorem failsWith_ok (value : α) : FailsWith P (.ok value) := by
  simp [FailsWith]

@[simp] theorem failsWith_error_iff (fault : ε) : FailsWith P (.error fault : Except ε α) ↔ P fault := by
  simp [FailsWith]

@[simp] theorem failsWith_map_iff (result : Except ε α) (f : α → β) :
    FailsWith P (result.map f) ↔ FailsWith P result := by
  cases result <;> simp [Except.map]

theorem failsWith_mapError_iff {P : ε' → Prop} (result : Except ε α) (f : ε → ε') :
    FailsWith P (result.mapError f) ↔ FailsWith (fun fault => P (f fault)) result := by
  cases result <;> simp [Except.mapError]

theorem failsWith_bind {result : Except ε α} {next : α → Except ε β} (fails : FailsWith P result)
    (each : ∀ value, result = .ok value → FailsWith P (next value)) : FailsWith P (result >>= next) := by
  cases result with
  | ok value => exact each value rfl
  | error fault => exact (failsWith_error_iff fault).mpr ((failsWith_error_iff fault).mp fails)

theorem failsWith_mapM {read : α → Except ε β} {items : List α}
    (each : ∀ item ∈ items, FailsWith P (read item)) : FailsWith P (items.mapM read) := by
  induction items with
  | nil => exact failsWith_ok _
  | cons item items ih =>
      rw [List.forall_mem_cons] at each
      rw [List.mapM_cons]
      exact failsWith_bind each.1 fun _ _ => failsWith_bind (ih each.2) fun _ _ => failsWith_ok _

end WebTestLint
