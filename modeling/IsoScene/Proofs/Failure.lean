import Mathlib.Data.List.Basic

/-! # Steps that may fail

A list is gone through in order, and the first failure ends the run.

* `FirstFailure` — the first item of a list that fails, with its failure.
* `bind_eq_ok_iff`, `bind_eq_error_iff`, `map_eq_ok_iff` — what a success or a failure comes from.
* `mapM_eq_ok_iff`, `mapM_eq_error_iff` — when a list is gone through, and which failure counts.
* `foldlM_eq_mapM` — a run whose steps only add to the state what they find out without it is a run
  without state.
-/

namespace IsoScene

variable {ε α β γ : Type}

/-- The first item that fails has this failure. -/
def FirstFailure (fails : α → ε → Prop) (xs : List α) (e : ε) : Prop :=
  ∃ before x after, xs = before ++ x :: after ∧ (∀ y ∈ before, ∀ e', ¬ fails y e') ∧ fails x e

namespace FirstFailure

variable {fails : α → ε → Prop} {e : ε}

@[simp] theorem nil : ¬ FirstFailure fails [] e := by
  simp [FirstFailure]

/-- The first item fails, or it does not and a later one is the first. -/
theorem cons {x : α} {xs : List α} :
    FirstFailure fails (x :: xs) e ↔
      fails x e ∨ (∀ e', ¬ fails x e') ∧ FirstFailure fails xs e := by
  constructor
  · rintro ⟨before, y, after, split, succeed, failed⟩
    cases before with
    | nil =>
      obtain ⟨rfl, -⟩ := List.cons.inj split
      exact .inl failed
    | cons z before =>
      obtain ⟨rfl, rfl⟩ := List.cons.inj split
      exact .inr ⟨succeed x List.mem_cons_self, before, y, after, rfl,
        fun z member => succeed z (List.mem_cons_of_mem x member), failed⟩
  · rintro (failed | ⟨succeeds, before, y, after, rfl, succeed, failed⟩)
    · exact ⟨[], x, xs, rfl, by simp, failed⟩
    · exact ⟨x :: before, y, after, rfl, List.forall_mem_cons.mpr ⟨succeeds, succeed⟩, failed⟩

theorem append {xs ys : List α} :
    FirstFailure fails (xs ++ ys) e ↔
      FirstFailure fails xs e ∨
        (∀ x ∈ xs, ∀ e', ¬ fails x e') ∧ FirstFailure fails ys e := by
  induction xs with
  | nil => simp
  | cons x xs ih =>
    rw [List.cons_append, cons, cons, ih, List.forall_mem_cons]
    tauto

theorem map {g : β → α} {xs : List β} :
    FirstFailure fails (xs.map g) e ↔ FirstFailure (fun x e => fails (g x) e) xs e := by
  induction xs with
  | nil => simp
  | cons x xs ih => rw [List.map_cons, cons, cons, ih]

/-- Either some item is the first that fails, or none fails. -/
theorem forall_not_iff {xs : List α} :
    (∀ e, ¬ FirstFailure fails xs e) ↔ ∀ x ∈ xs, ∀ e, ¬ fails x e := by
  induction xs with
  | nil => simp
  | cons x xs ih =>
    simp only [cons, List.forall_mem_cons, ← ih]
    constructor
    · intro never
      have succeeds : ∀ e, ¬ fails x e := fun e failed => never e (.inl failed)
      exact ⟨succeeds, fun e later => never e (.inr ⟨succeeds, later⟩)⟩
    · rintro ⟨succeeds, neverLater⟩ e (failed | ⟨-, later⟩)
      · exact succeeds e failed
      · exact neverLater e later

end FirstFailure

/-! ## Runs -/

@[simp] theorem ok_bind (x : α) (f : α → Except ε β) : (Except.ok x >>= f) = f x := rfl

@[simp] theorem error_bind (e : ε) (f : α → Except ε β) :
    ((Except.error e : Except ε α) >>= f) = .error e := rfl

theorem not_error_iff {x : Except ε α} : (∀ e, ¬ x = .error e) ↔ ∃ y, x = .ok y := by
  cases x <;> simp

theorem mapM_congr {f g : α → Except ε β} {xs : List α} (same : ∀ x ∈ xs, f x = g x) :
    xs.mapM f = xs.mapM g := by
  induction xs with
  | nil => rfl
  | cons x xs ih =>
    obtain ⟨sameFirst, sameLater⟩ := List.forall_mem_cons.mp same
    rw [List.mapM_cons, List.mapM_cons, sameFirst, ih sameLater]

theorem bind_eq_ok_iff {outcome : Except ε α} {f : α → Except ε β} {b : β} :
    outcome >>= f = .ok b ↔ ∃ a, outcome = .ok a ∧ f a = .ok b := by
  cases outcome <;> simp

theorem bind_eq_error_iff {outcome : Except ε α} {f : α → Except ε β} {e : ε} :
    outcome >>= f = .error e ↔ outcome = .error e ∨ ∃ a, outcome = .ok a ∧ f a = .error e := by
  cases outcome <;> simp

/-- What comes behind a check is reached if the check is passed. -/
theorem check_bind_eq_ok_iff {check : Except ε Unit} {later : Except ε β} {b : β} :
    (check >>= fun _ => later) = .ok b ↔ check = .ok () ∧ later = .ok b := by
  cases check <;> simp

theorem mapError_eq_ok_iff {ε' : Type} {outcome : Except ε α} {f : ε → ε'} {a : α} :
    outcome.mapError f = .ok a ↔ outcome = .ok a := by
  cases outcome <;> simp [Except.mapError]

theorem map_eq_ok_iff {outcome : Except ε α} {f : α → β} {b : β} :
    outcome.map f = .ok b ↔ ∃ a, outcome = .ok a ∧ f a = b := by
  cases outcome <;> simp [Except.map]

theorem mapM_eq_ok_iff {f : α → Except ε β} {xs : List α} {ys : List β} :
    xs.mapM f = .ok ys ↔ xs.map f = ys.map .ok := by
  induction xs generalizing ys with
  | nil => cases ys <;> simp [pure, Except.pure]
  | cons x xs ih =>
    rw [List.mapM_cons, List.map_cons]
    cases f x with
    | error e => cases ys <;> simp
    | ok y =>
      cases ys with
      | nil => cases xs.mapM f <;> simp [pure, Except.pure]
      | cons y' ys =>
        have rest := @ih ys
        cases others : xs.mapM f with
        | error e =>
          rw [others] at rest
          simpa using fun _ => rest.not.mp (by simp)
        | ok found =>
          rw [others] at rest
          simpa [pure, Except.pure] using fun _ => by simpa using rest

/-- Whatever a run finds, it has found for one of the items. -/
theorem exists_of_mem_mapM {f : α → Except ε β} {xs : List α} {ys : List β}
    (found : xs.mapM f = .ok ys) {y : β} (member : y ∈ ys) : ∃ x ∈ xs, f x = .ok y := by
  have inResults : (.ok y : Except ε β) ∈ xs.map f := by
    rw [mapM_eq_ok_iff.mp found]
    exact List.mem_map_of_mem member
  exact List.mem_map.mp inResults

/-- Items that give a known result if they give one make a run with known results. -/
theorem eq_map_of_mapM {f : α → Except ε β} {g : α → β} {xs : List α} {ys : List β}
    (found : xs.mapM f = .ok ys) (known : ∀ x y, f x = .ok y → y = g x) : ys = xs.map g := by
  rw [mapM_eq_ok_iff] at found
  refine List.map_injective_iff.mpr (fun _ _ => Except.ok.inj) (found.symm.trans ?_)
  rw [List.map_map]
  refine List.map_congr_left fun x member => ?_
  obtain ⟨y, -, result⟩ := List.mem_map.mp (found ▸ List.mem_map_of_mem member)
  rw [← result, Function.comp_apply, ← known x y result.symm]

/-- A failure is that of the first item that fails. -/
theorem mapM_eq_error_iff {f : α → Except ε β} {xs : List α} {e : ε} :
    xs.mapM f = .error e ↔ FirstFailure (fun x e => f x = .error e) xs e := by
  induction xs with
  | nil => simp [pure, Except.pure]
  | cons x xs ih =>
    rw [List.mapM_cons, FirstFailure.cons, ← ih]
    cases f x with
    | error e' => simp
    | ok y => cases xs.mapM f <;> simp [pure, Except.pure]

theorem exists_of_mapM_eq_error {f : α → Except ε β} {xs : List α} {e : ε}
    (failed : xs.mapM f = .error e) : ∃ x ∈ xs, f x = .error e := by
  obtain ⟨before, x, after, rfl, -, here⟩ := mapM_eq_error_iff.mp failed
  exact ⟨x, by simp, here⟩

theorem forM_cons (f : α → Except ε Unit) (x : α) (xs : List α) :
    (x :: xs).forM f = f x >>= fun _ => xs.forM f := rfl

theorem forM_eq_ok_iff {f : α → Except ε Unit} {xs : List α} :
    xs.forM f = .ok () ↔ ∀ x ∈ xs, f x = .ok () := by
  induction xs with
  | nil => simp [List.forM, pure, Except.pure]
  | cons x xs ih =>
    rw [forM_cons, check_bind_eq_ok_iff, List.forall_mem_cons, ih]

/-- A list is gone through exactly if no item fails. -/
theorem exists_mapM_eq_ok_iff {f : α → Except ε β} {xs : List α} :
    (∃ ys, xs.mapM f = .ok ys) ↔ ∀ x ∈ xs, ∃ y, f x = .ok y := by
  simp only [← not_error_iff, mapM_eq_error_iff, FirstFailure.forall_not_iff]

/-- Steps that fail by their item alone fail with the first item that fails. -/
theorem foldlM_eq_error_iff {step : β → α → Except ε β} {fails : α → ε → Prop}
    (step_fails : ∀ state x e, step state x = .error e ↔ fails x e) {state : β} {xs : List α}
    {e : ε} : xs.foldlM step state = .error e ↔ FirstFailure fails xs e := by
  induction xs generalizing state with
  | nil => simp [pure, Except.pure]
  | cons x xs ih =>
    rw [List.foldlM_cons, FirstFailure.cons]
    simp only [← step_fails state]
    cases step state x with
    | error e' => simp
    | ok state' => simpa using ih

/-- Steps that all succeed make a run that succeeds. -/
theorem foldlM_eq_ok {step : β → α → Except ε β} {next : β → α → β} {xs : List α}
    (succeeds : ∀ x ∈ xs, ∀ state, step state x = .ok (next state x)) (state : β) :
    xs.foldlM step state = .ok (xs.foldl next state) := by
  induction xs generalizing state with
  | nil => rfl
  | cons x xs ih =>
    obtain ⟨first, later⟩ := List.forall_mem_cons.mp succeeds
    rw [List.foldlM_cons, first, ok_bind, ih later, List.foldl_cons]

/-- A step that finds something out without the state and then adds it to the state. Going through
a list with such steps is finding everything out first and then adding it. -/
theorem foldlM_eq_mapM {step : β → α → Except ε β} {find : α → Except ε γ} {add : β → γ → β}
    (adds : ∀ state x, step state x = (find x).map (add state)) (state : β) (xs : List α) :
    xs.foldlM step state = (xs.mapM find).map fun found => found.foldl add state := by
  induction xs generalizing state with
  | nil => rfl
  | cons x xs ih =>
    -- What is found out about `x` does not depend on the state, so it can be found out first.
    rw [List.foldlM_cons, List.mapM_cons, adds]
    cases find x with
    | error e => rfl
    | ok y =>
      show xs.foldlM step (add state y) = _
      rw [ih (add state y)]
      cases xs.mapM find <;> rfl

end IsoScene
