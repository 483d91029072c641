import Bearer.Bytes

namespace Bearer

/-! ## Outcomes -/

section Outcome

variable {ε ε' α β : Type}

theorem bind_eq_ok {first : Except ε α} {next : α → Except ε β} {result : β} :
    (first >>= next) = .ok result ↔ ∃ value, first = .ok value ∧ next value = .ok result := by
  cases first <;> simp [bind, Except.bind]

theorem pure_eq_ok {value result : α} : (pure value : Except ε α) = .ok result ↔ value = result := by
  simp [pure, Except.pure]

@[simp] theorem throw_eq_error (fault : ε) : (throw fault : Except ε α) = .error fault := rfl

@[simp] theorem ok_bind (value : α) (next : α → Except ε β) :
    (Except.ok value >>= next) = next value := rfl

@[simp] theorem error_bind (fault : ε) (next : α → Except ε β) :
    ((Except.error fault : Except ε α) >>= next) = .error fault := rfl

@[simp] theorem mapError_ok (change : ε → ε') (value : α) :
    (Except.ok value).mapError change = .ok value := rfl

@[simp] theorem mapError_error (change : ε → ε') (fault : ε) :
    (Except.error fault : Except ε α).mapError change = .error (change fault) := rfl

theorem mapError_eq_ok {change : ε → ε'} {outcome : Except ε α} {value : α} :
    outcome.mapError change = .ok value ↔ outcome = .ok value := by
  cases outcome <;> simp

theorem map_eq_ok {change : α → β} {outcome : Except ε α} {result : β} :
    outcome.map change = .ok result ↔ ∃ value, outcome = .ok value ∧ change value = result := by
  cases outcome <;> simp [Except.map]

theorem mapM_eq_ok {outcome : α → Except ε β} {value : α → β} {list : List α}
    (good : ∀ item ∈ list, outcome item = .ok (value item)) :
    list.mapM outcome = .ok (list.map value) := by
  induction list with
  | nil => rfl
  | cons item list ih =>
      rw [List.mapM_cons, good item List.mem_cons_self, ok_bind,
        ih fun other member => good other (List.mem_cons_of_mem _ member)]
      rfl

theorem ok_of_mapM {outcome : α → Except ε β} {list : List α} {values : List β}
    (done : list.mapM outcome = .ok values) : ∀ item ∈ list, ∃ value, outcome item = .ok value := by
  induction list generalizing values with
  | nil => exact fun _ member => nomatch member
  | cons first list ih =>
      simp only [List.mapM_cons, bind_eq_ok] at done
      obtain ⟨value, here, rest, further, -⟩ := done
      exact List.forall_mem_cons.2 ⟨⟨value, here⟩, ih further⟩

end Outcome

/-! ## Readers -/

section Reader

variable {ε σ α β : Type}

theorem bind_read {first : StateT σ (Except ε) α} {text rest : σ} {found : α}
    (done : first text = .ok (found, rest)) (next : α → StateT σ (Except ε) β) :
    (first >>= next) text = next found rest := by
  change (first text >>= fun pair => next pair.1 pair.2) = _
  rw [done]
  rfl

theorem bind_read_eq_ok {first : StateT σ (Except ε) α} {next : α → StateT σ (Except ε) β}
    {text rest : σ} {result : β} : (first >>= next) text = .ok (result, rest) ↔
      ∃ found between, first text = .ok (found, between) ∧
        next found between = .ok (result, rest) := by
  change (first text >>= fun pair => next pair.1 pair.2) = _ ↔ _
  rw [bind_eq_ok, Prod.exists]

@[simp] theorem pure_read (found : α) (rest : σ) :
    (pure found : StateT σ (Except ε) α) rest = .ok (found, rest) := rfl

@[simp] theorem get_bind_read (next : σ → StateT σ (Except ε) β) (rest : σ) :
    (get >>= next) rest = next rest rest := rfl

@[simp] theorem set_bind_read (left : σ) (next : PUnit → StateT σ (Except ε) β) (rest : σ) :
    (set left >>= next) rest = next ⟨⟩ left := rfl

end Reader

/-! ## Actions that keep their state when they fail -/

section Action

variable {ε σ α β : Type}

/-- What an action answers, and the state that it leaves. -/
def perform (action : ExceptT ε (StateM σ) α) (state : σ) : Except ε α × σ := action.run.run state

@[simp] theorem perform_pure (value : α) (state : σ) :
    perform (pure value : ExceptT ε (StateM σ) α) state = (.ok value, state) := rfl

@[simp] theorem perform_lift (outcome : Except ε α) (state : σ) :
    perform (liftM outcome : ExceptT ε (StateM σ) α) state = (outcome, state) := rfl

@[simp] theorem perform_modify (change : σ → σ) (state : σ) :
    perform (modify change : ExceptT ε (StateM σ) PUnit) state = (.ok ⟨⟩, change state) := rfl

theorem perform_bind (first : ExceptT ε (StateM σ) α) (next : α → ExceptT ε (StateM σ) β)
    (state : σ) : perform (first >>= next) state = match perform first state with
      | (.ok value, state) => perform (next value) state
      | (.error fault, state) => (.error fault, state) := by
  simp only [perform, ExceptT.run_bind, StateT.run_bind]
  change (match first.run.run state with | (outcome, state) => _) = _
  rcases first.run.run state with ⟨_ | _, _⟩ <;> rfl

theorem perform_bind_ok {first : ExceptT ε (StateM σ) α} {state after : σ} {value : α}
    (done : perform first state = (.ok value, after)) (next : α → ExceptT ε (StateM σ) β) :
    perform (first >>= next) state = perform (next value) after := by
  rw [perform_bind, done]

theorem perform_bind_error {first : ExceptT ε (StateM σ) α} {state after : σ} {fault : ε}
    (done : perform first state = (.error fault, after)) (next : α → ExceptT ε (StateM σ) β) :
    perform (first >>= next) state = (.error fault, after) := by
  rw [perform_bind, done]

theorem perform_bind_eq_ok {first : ExceptT ε (StateM σ) α} {next : α → ExceptT ε (StateM σ) β}
    {state after : σ} {result : β} : perform (first >>= next) state = (.ok result, after) ↔
      ∃ value between, perform first state = (.ok value, between) ∧
        perform (next value) between = (.ok result, after) := by
  rw [perform_bind]
  rcases perform first state with ⟨fault | value, between⟩
  · simp
  · constructor
    · intro done
      exact ⟨value, between, rfl, done⟩
    · rintro ⟨_, _, ⟨⟩, done⟩
      exact done

theorem perform_tryCatch (action : ExceptT ε (StateM σ) α) (rescue : ε → ExceptT ε (StateM σ) α)
    (state : σ) : perform (tryCatch action rescue) state = match perform action state with
      | (.ok value, state) => (.ok value, state)
      | (.error fault, state) => perform (rescue fault) state := by
  change (do match ← action.run with
    | .ok value => pure (.ok value)
    | .error fault => (rescue fault).run : StateM σ (Except ε α)).run state = _
  simp only [perform, StateT.run_bind]
  change (match action.run.run state with | (outcome, state) => _) = _
  rcases action.run.run state with ⟨_ | _, _⟩ <;> rfl

@[simp] theorem perform_get_bind (next : σ → ExceptT ε (StateM σ) β) (state : σ) :
    perform (get >>= next) state = perform (next state) state := perform_bind_ok rfl next

@[simp] theorem perform_ok_bind (value : α) (next : α → ExceptT ε (StateM σ) β) (state : σ) :
    perform ((liftM (Except.ok value : Except ε α) : ExceptT ε (StateM σ) α) >>= next) state =
      perform (next value) state := perform_bind_ok rfl next

@[simp] theorem perform_error_bind (fault : ε) (next : α → ExceptT ε (StateM σ) β) (state : σ) :
    perform ((liftM (Except.error fault : Except ε α) : ExceptT ε (StateM σ) α) >>= next) state =
      (.error fault, state) := perform_bind_error rfl next

end Action

end Bearer
