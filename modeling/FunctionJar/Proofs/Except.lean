namespace FunctionJar

variable {ε ε' α β : Type}

theorem throw_ne_ok {e : ε} {a : α} : (throw e : Except ε α) ≠ .ok a := by
  simp [throw, throwThe, MonadExceptOf.throw]

theorem ok_bind (a : α) (f : α → Except ε β) : Except.ok a >>= f = f a := rfl

theorem bind_ok {x : Except ε α} {f : α → Except ε β} {b : β} (h : x >>= f = .ok b) :
    ∃ a, x = .ok a ∧ f a = .ok b := by
  cases x with
  | error e => cases h
  | ok a => exact ⟨a, rfl, h⟩

theorem map_ok {x : Except ε α} {f : α → β} {b : β} (h : x.map f = .ok b) :
    ∃ a, x = .ok a ∧ f a = b := by
  cases x with
  | error e => cases h
  | ok a => exact ⟨a, rfl, Except.ok.inj h⟩

/-- What is behind a check has been reached because the check did not fail. -/
theorem check_ok {c : Prop} [Decidable c] {e : ε} {f : PUnit → Except ε α} {a : α}
    (h : (if c then (throw e : Except ε PUnit) >>= f else f ⟨⟩) = .ok a) : ¬ c ∧ f ⟨⟩ = .ok a := by
  split at h
  · cases h
  · next hc => exact ⟨hc, h⟩

theorem mapError_ok (f : ε → ε') (a : α) : (Except.ok a).mapError f = .ok a := rfl

theorem mapError_error (f : ε → ε') (e : ε) :
    (Except.error e : Except ε α).mapError f = .error (f e) := rfl

theorem ok_of_mapError {x : Except ε α} {f : ε → ε'} {a : α} (h : x.mapError f = .ok a) :
    x = .ok a := by
  cases x with
  | error e => cases h
  | ok b => exact congrArg Except.ok (Except.ok.inj h)

theorem ok_of_toOption {x : Except ε α} {a : α} (h : x.toOption = some a) : x = .ok a := by
  cases x with
  | error e => cases h
  | ok b => exact congrArg Except.ok (Option.some.inj h)

variable {as : List α} {f : α → Except ε β}

theorem mapM_ok {bs : List β} (h : as.mapM f = .ok bs) : as.map f = bs.map .ok := by
  induction as generalizing bs with
  | nil =>
      obtain rfl := Except.ok.inj h
      rfl
  | cons a as ih =>
      rw [List.mapM_cons] at h
      obtain ⟨b, hb, h⟩ := bind_ok h
      obtain ⟨rest, hrest, h⟩ := bind_ok h
      obtain rfl := Except.ok.inj h
      rw [List.map_cons, List.map_cons, hb, ih hrest]

theorem mapM_error {e : ε} (h : as.mapM f = .error e) : ∃ a ∈ as, f a = .error e := by
  induction as with
  | nil => cases h
  | cons a as ih =>
      rw [List.mapM_cons] at h
      cases ha : f a with
      | error e' =>
          rw [ha] at h
          exact ⟨a, List.mem_cons_self, ha.trans (congrArg _ (Except.error.inj h))⟩
      | ok b =>
          rw [ha, ok_bind] at h
          cases has : as.mapM f with
          | ok bs => rw [has] at h; cases h
          | error e' =>
              rw [has] at h
              obtain ⟨a', hmem, ha'⟩ := ih (has.trans (congrArg _ (Except.error.inj h)))
              exact ⟨a', List.mem_cons_of_mem a hmem, ha'⟩

end FunctionJar
