namespace ScriptCheck

variable {ε α β : Type}

@[simp]
theorem ok_bind (a : α) (f : α → Except ε β) : (.ok a >>= f) = f a :=
  rfl

@[simp]
theorem error_bind (e : ε) (f : α → Except ε β) : (.error e >>= f) = .error e :=
  rfl

theorem bind_eq_ok_iff {x : Except ε α} {f : α → Except ε β} {b : β} :
    (x >>= f) = .ok b ↔ ∃ a, x = .ok a ∧ f a = .ok b := by
  cases x <;> simp

theorem bind_eq_error_iff {x : Except ε α} {f : α → Except ε β} {e : ε} :
    (x >>= f) = .error e ↔ x = .error e ∨ ∃ a, x = .ok a ∧ f a = .error e := by
  cases x <;> simp

theorem map_eq_ok_iff {x : Except ε α} {f : α → β} {b : β} : f <$> x = .ok b ↔ ∃ a, x = .ok a ∧ f a = b := by
  cases x <;> simp [Functor.map, Except.map]

theorem mapError_eq_ok_iff {δ : Type} {x : Except ε α} {f : ε → δ} {a : α} : x.mapError f = .ok a ↔ x = .ok a := by
  constructor <;> intro h <;> cases x <;> cases h <;> rfl

theorem mapError_eq_error_iff {δ : Type} {x : Except ε α} {f : ε → δ} {d : δ} :
    x.mapError f = .error d ↔ ∃ e, x = .error e ∧ f e = d := by
  constructor
  case mp =>
    intro h
    cases x <;> cases h
    exact ⟨_, rfl, rfl⟩
  case mpr =>
    rintro ⟨_, rfl, rfl⟩
    rfl

section State

variable {σ : Type} {s s' : σ} {x : ExceptT ε (StateM σ) α}

theorem run_bind_of_ok {a : α} (f : α → ExceptT ε (StateM σ) β) (h : x.run.run s = (.ok a, s')) :
    (x >>= f).run.run s = (f a).run.run s' := by
  rw [ExceptT.run_bind, StateT.run_bind, h]
  rfl

theorem run_bind_of_error {e : ε} (f : α → ExceptT ε (StateM σ) β) (h : x.run.run s = (.error e, s')) :
    (x >>= f).run.run s = (.error e, s') := by
  rw [ExceptT.run_bind, StateT.run_bind, h]
  rfl

theorem run_map (f : α → β) : (f <$> x).run.run s = ((x.run.run s).1.map f, (x.run.run s).2) := by
  rw [ExceptT.run_map, StateT.run_map]
  rfl

theorem run_liftExcept (y : Except ε α) : (liftExcept y : ExceptT ε (StateM σ) α).run.run s = (y, s) := by
  cases y <;> rfl

theorem run_modify_bind (f : σ → σ) (g : PUnit → ExceptT ε (StateM σ) β) :
    (modify f >>= g).run.run s = (g ⟨⟩).run.run (f s) :=
  rfl

theorem run_get_bind (f : σ → ExceptT ε (StateM σ) β) : (get >>= f).run.run s = (f s).run.run s :=
  rfl

end State

-- What a check gives that stops at the first of `faults`.
def verdict : List ε → Except ε Unit
  | []         => .ok ()
  | fault :: _ => .error fault

variable {faults : List ε}

theorem verdict_eq_ok_iff : verdict faults = .ok () ↔ faults = [] := by
  cases faults <;> simp [verdict]

theorem verdict_bind_eq_ok_iff {a b : α} : (verdict faults >>= fun _ => .ok a) = .ok b ↔ b = a ∧ faults = [] := by
  cases faults <;> simp [verdict, eq_comm]

theorem verdict_bind_eq_error_iff {a : α} {fault : ε} :
    (verdict faults >>= fun _ => .ok a) = .error fault ↔ faults.head? = some fault := by
  cases faults <;> simp [verdict]

theorem verdict_append (faults others : List ε) :
    verdict (faults ++ others) = verdict faults >>= fun _ => verdict others := by
  cases faults <;> rfl

theorem forM_eq_verdict {check : α → Except ε Unit} {f : α → List ε} {as : List α}
    (h : ∀ a ∈ as, check a = verdict (f a)) : as.forM check = verdict (as.flatMap f) := by
  induction as
  case nil => rfl
  case cons a as ih =>
    have ⟨ha, h⟩ := List.forall_mem_cons.mp h
    rw [List.flatMap_cons, verdict_append, ←ih h, ←ha]
    rfl

end ScriptCheck
