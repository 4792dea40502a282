import IsoScene.Effect.Source

/-! # Requests that always answer alike

A request may look at the state of its source and change it. Where a source keeps to an invariant,
its requests can have one answer all the same, whichever of the allowed states they find. What is
put together from such requests has one answer, too, and so the state can be forgotten.

* `answer_bind` and its likes — the answer of a request from the answers of its parts.
* `Answers` — a request with one answer in all the allowed states.
* `Agree` — two requests with the same one answer, with a rule for every way of combining requests.
* `remembered` — a request whose answer is kept for the next time.
-/

namespace IsoScene.Fetch

variable {σ α β γ : Type}

/-! ## Answers of combined requests -/

theorem answer_pure (a : α) (state : σ) : (pure a : Fetch σ α).answer state = (.ok a, state) := rfl

theorem answer_throw (e : RenderError) (state : σ) :
    (throw e : Fetch σ α).answer state = (.error e, state) := rfl

theorem answer_bind (request : Fetch σ α) (next : α → Fetch σ β) (state : σ) :
    Fetch.answer (request >>= next) state =
      match request.answer state with
      | (.ok a, state) => (next a).answer state
      | (.error e, state) => (.error e, state) := by
  simp only [answer, ExceptT.run_bind, StateT.run_bind]
  rcases (ExceptT.run request).run state with ⟨e | a, state⟩ <;> rfl

theorem answer_bind_eq_ok {request : Fetch σ α} {next : α → Fetch σ β} {state after : σ} {b : β} :
    Fetch.answer (request >>= next) state = (.ok b, after) ↔
      ∃ a between, request.answer state = (.ok a, between) ∧
        (next a).answer between = (.ok b, after) := by
  rw [answer_bind]
  rcases request.answer state with ⟨e | a, between⟩
  · simp
  · constructor
    · exact fun later => ⟨a, between, rfl, later⟩
    · rintro ⟨_, _, ⟨⟩, later⟩
      exact later

theorem answer_get (state : σ) : (get : Fetch σ σ).answer state = (.ok state, state) := rfl

/-! ## One answer -/

/-- Whatever allowed state it finds, the request answers in this way and leaves an allowed state. -/
def Answers (Inv : σ → Prop) (request : Fetch σ α) (outcome : Except RenderError α) : Prop :=
  ∀ state, Inv state → (request.answer state).1 = outcome ∧ Inv (request.answer state).2

namespace Answers

variable {Inv : σ → Prop} {request : Fetch σ α} {outcome : Except RenderError α}

theorem pure (a : α) : Answers Inv (Pure.pure a) (.ok a) := fun _ allowed => ⟨rfl, allowed⟩

theorem throw (e : RenderError) : Answers Inv (MonadExcept.throw e : Fetch σ α) (.error e) :=
  fun _ allowed => ⟨rfl, allowed⟩

theorem lift (outcome : Except RenderError α) : Answers Inv (liftM outcome) outcome :=
  fun _ allowed => ⟨rfl, allowed⟩

theorem bind_ok {a : α} {next : α → Fetch σ β} {later : Except RenderError β}
    (first : Answers Inv request (.ok a)) (second : Answers Inv (next a) later) :
    Answers Inv (request >>= next) later := by
  intro state allowed
  obtain ⟨answered, kept⟩ := first state allowed
  rw [answer_bind]
  rcases found : request.answer state with ⟨result, after⟩
  rw [found] at answered kept
  obtain rfl : result = .ok a := answered
  exact second after kept

theorem bind_error {e : RenderError} {next : α → Fetch σ β}
    (first : Answers Inv request (.error e)) : Answers Inv (request >>= next) (.error e) := by
  intro state allowed
  obtain ⟨answered, kept⟩ := first state allowed
  rw [answer_bind]
  rcases found : request.answer state with ⟨result, after⟩
  rw [found] at answered kept
  obtain rfl : result = .error e := answered
  exact ⟨rfl, kept⟩

theorem bind {next : α → Fetch σ β} {later : α → Except RenderError β}
    (first : Answers Inv request outcome) (second : ∀ a, Answers Inv (next a) (later a)) :
    Answers Inv (request >>= next) (outcome >>= later) := by
  cases outcome with
  | ok a => exact first.bind_ok (second a)
  | error e => exact first.bind_error

theorem mapM {request : β → Fetch σ γ} {find : β → Except RenderError γ} {items : List β}
    (each : ∀ item ∈ items, Answers Inv (request item) (find item)) :
    Answers Inv (items.mapM request) (items.mapM find) := by
  induction items with
  | nil => exact pure []
  | cons item items ih =>
    obtain ⟨here, later⟩ := List.forall_mem_cons.mp each
    rw [List.mapM_cons, List.mapM_cons]
    exact here.bind fun result => (ih later).bind fun results => pure (result :: results)

theorem map (f : α → β) (first : Answers Inv request outcome) :
    Answers Inv (f <$> request) (outcome.map f) := by
  rw [map_eq_pure_bind]
  cases outcome with
  | ok a => exact first.bind_ok (pure (f a))
  | error e => exact first.bind_error

theorem eq_of_allowed {state : σ} (first : Answers Inv request outcome) (allowed : Inv state) :
    outcome = (request.answer state).1 := (first state allowed).1.symm

end Answers

/-! ## The same answer -/

/-- Two requests that may stand for each other: they have the same one answer. -/
def Agree (Inv : σ → Prop) (first second : Fetch σ α) : Prop :=
  ∃ outcome, Answers Inv first outcome ∧ Answers Inv second outcome

theorem Answers.agree {Inv : σ → Prop} {request : Fetch σ α} {outcome : Except RenderError α}
    (answers : Answers Inv request outcome) : Agree Inv request request :=
  ⟨outcome, answers, answers⟩

namespace Agree

variable {Inv : σ → Prop} {first second : Fetch σ α}

theorem pure (a : α) : Agree Inv (Pure.pure a : Fetch σ α) (Pure.pure a) := (Answers.pure a).agree

theorem throw (e : RenderError) :
    Agree Inv (MonadExcept.throw e : Fetch σ α) (MonadExcept.throw e) := (Answers.throw e).agree

theorem lift (outcome : Except RenderError α) :
    Agree Inv (liftM outcome : Fetch σ α) (liftM outcome) := (Answers.lift outcome).agree

theorem ofUser (outcome : Except UserError α) :
    Agree Inv (Fetch.ofUser outcome : Fetch σ α) (Fetch.ofUser outcome) := by
  cases outcome with
  | ok a => exact pure a
  | error e => exact throw (.user e)

theorem bind {next later : α → Fetch σ β} (agree : Agree Inv first second)
    (go : ∀ a, Agree Inv (next a) (later a)) : Agree Inv (first >>= next) (second >>= later) := by
  obtain ⟨outcome, firstAnswers, secondAnswers⟩ := agree
  cases outcome with
  | error e => exact ⟨.error e, firstAnswers.bind_error, secondAnswers.bind_error⟩
  | ok a =>
    -- Both go on from the same result, though maybe from different states.
    obtain ⟨outcome, nextAnswers, laterAnswers⟩ := go a
    exact ⟨outcome, firstAnswers.bind_ok nextAnswers, secondAnswers.bind_ok laterAnswers⟩

/-- What follows a result that needs no source is only asked if there is a result. -/
theorem ofUser_bind {outcome : Except UserError α} {next later : α → Fetch σ β}
    (go : ∀ a, outcome = .ok a → Agree Inv (next a) (later a)) :
    Agree Inv (Fetch.ofUser outcome >>= next) (Fetch.ofUser outcome >>= later) := by
  cases outcome with
  | error e => exact ⟨.error (.user e), (Answers.throw _).bind_error, (Answers.throw _).bind_error⟩
  | ok a =>
    obtain ⟨result, nextAnswers, laterAnswers⟩ := go a rfl
    exact ⟨result, (Answers.pure a).bind_ok nextAnswers, (Answers.pure a).bind_ok laterAnswers⟩

theorem map (f : α → β) (agree : Agree Inv first second) :
    Agree Inv (f <$> first) (f <$> second) := by
  obtain ⟨outcome, firstAnswers, secondAnswers⟩ := agree
  exact ⟨outcome.map f, firstAnswers.map f, secondAnswers.map f⟩

theorem mapM {request other : β → Fetch σ γ} {items : List β}
    (agree : ∀ item ∈ items, Agree Inv (request item) (other item)) :
    Agree Inv (items.mapM request) (items.mapM other) := by
  induction items with
  | nil => exact pure []
  | cons item items ih =>
    obtain ⟨here, later⟩ := List.forall_mem_cons.mp agree
    rw [List.mapM_cons, List.mapM_cons]
    exact here.bind fun result => (ih later).bind fun results => pure (result :: results)

theorem foldlM {step other : γ → β → Fetch σ γ} {items : List β}
    (agree : ∀ item ∈ items, ∀ result, Agree Inv (step result item) (other result item))
    (start : γ) : Agree Inv (items.foldlM step start) (items.foldlM other start) := by
  induction items generalizing start with
  | nil => exact pure start
  | cons item items ih =>
    obtain ⟨here, later⟩ := List.forall_mem_cons.mp agree
    rw [List.foldlM_cons, List.foldlM_cons]
    exact (here start).bind fun result => ih later result

theorem answer_eq {state other : σ} (agree : Agree Inv first second) (allowed : Inv state)
    (allowedOther : Inv other) : (first.answer state).1 = (second.answer other).1 := by
  obtain ⟨outcome, firstAnswers, secondAnswers⟩ := agree
  rw [(firstAnswers state allowed).1, (secondAnswers other allowedOther).1]

theorem allowed_after {state : σ} (agree : Agree Inv first second) (allowed : Inv state) :
    Inv (first.answer state).2 := by
  obtain ⟨outcome, firstAnswers, -⟩ := agree
  exact (firstAnswers state allowed).2

/-- A request that agrees with itself answers as in any one allowed state. -/
theorem answers {state : σ} (agree : Agree Inv first first) (allowed : Inv state) :
    Answers Inv first (first.answer state).1 := by
  obtain ⟨outcome, firstAnswers, -⟩ := agree
  rwa [← firstAnswers.eq_of_allowed allowed]

end Agree

/-! ## Remembering -/

/-- Looks something up; if it is not remembered, it is made and remembered. -/
def remembered (known : σ → Option α) (make : Fetch σ α) (keep : α → σ → σ) : Fetch σ α := do
  match known (← get) with
  | some a => pure a
  | none =>
    let a ← make
    modify (keep a)
    pure a

theorem answer_remembered (known : σ → Option α) (make : Fetch σ α) (keep : α → σ → σ)
    (state : σ) :
    (remembered known make keep).answer state =
      match known state with
      | some a => (.ok a, state)
      | none =>
        match make.answer state with
        | (.ok a, state) => (.ok a, keep a state)
        | (.error e, state) => (.error e, state) := by
  rw [remembered, answer_bind, answer_get]
  dsimp only
  cases known state with
  | some a => rfl
  | none =>
    dsimp only
    rw [answer_bind]
    rcases make.answer state with ⟨e | a, after⟩ <;> rfl

/-- What is remembered in allowed states is what would be made, so remembering does not show. -/
theorem Answers.remembered {Inv : σ → Prop} {known : σ → Option α} {make : Fetch σ α}
    {keep : α → σ → σ} {outcome : Except RenderError α} (made : Answers Inv make outcome)
    (recalled : ∀ state a, Inv state → known state = some a → outcome = .ok a)
    (kept : ∀ state a, Inv state → outcome = .ok a → Inv (keep a state)) :
    Answers Inv (remembered known make keep) outcome := by
  intro state allowed
  rw [answer_remembered]
  cases found : known state with
  | some a => exact ⟨(recalled state a allowed found).symm, allowed⟩
  | none =>
    -- A failure is not remembered, so it leaves what the attempt has left.
    obtain ⟨answered, after⟩ := made state allowed
    rcases result : make.answer state with ⟨e | a, left⟩
    · rw [result] at answered after
      exact ⟨answered, after⟩
    · rw [result] at answered after
      exact ⟨answered, kept left a after answered.symm⟩

end IsoScene.Fetch
