/-!
# Steps that can fail

When computations in a row succeed, and what they fail with. Two of them come first, and then a fold over a
list whose steps are accepted or refused for what they take in, whatever state they find: such a fold
succeeds when all of its steps are accepted, and fails as the first one that is refused.
-/

namespace DiceNotation

/-- A computation with a step behind another one succeeds when both do. -/
theorem bind_eq_ok_iff {ε α β : Type} {x : Except ε α} {f : α → Except ε β} {b : β} :
    (x >>= f) = .ok b ↔ ∃ a, x = .ok a ∧ f a = .ok b := by
  cases x with
  | error e =>
    constructor
    · intro h
      cases h
    · rintro ⟨a, h, -⟩
      cases h
  | ok a =>
    constructor
    · exact fun h => ⟨a, rfl, h⟩
    · rintro ⟨a', ha, h⟩
      cases ha
      exact h

/-- A computation with a step behind another one fails when the first one fails, or when it succeeds and
the second one fails. -/
theorem bind_eq_error_iff {ε α β : Type} {x : Except ε α} {f : α → Except ε β} {e : ε} :
    (x >>= f) = .error e ↔ x = .error e ∨ ∃ a, x = .ok a ∧ f a = .error e := by
  cases x with
  | error e' =>
    constructor
    · intro h
      cases h
      exact .inl rfl
    · rintro (h | ⟨a, h, -⟩)
      · cases h
        rfl
      · cases h
  | ok a =>
    constructor
    · exact fun h => .inr ⟨a, rfl, h⟩
    · rintro (h | ⟨a', ha, h⟩)
      · cases h
      · cases ha
        exact h

/-- A step behind a computation that succeeded takes its value. -/
@[simp] theorem ok_bind {ε α β : Type} (a : α) (f : α → Except ε β) :
    ((Except.ok a : Except ε α) >>= f) = f a := rfl

/-- The value of a computation is there when it succeeds. -/
theorem toOption_eq_some_iff {ε α : Type} {x : Except ε α} {a : α} : x.toOption = some a ↔ x = .ok a := by
  cases x with
  | error e => exact iff_of_false (fun h => by cases h) fun h => by cases h
  | ok b => rw [Except.toOption, Option.some.injEq, Except.ok.injEq]

section Fold

variable {σ α ε : Type} {step : σ → α → Except ε σ} {xs : List α}

/-- What each step of a fold keeps, the fold keeps. -/
theorem foldlM_keeps {P : σ → Prop} (hstep : ∀ x ∈ xs, ∀ s t, P s → step s x = .ok t → P t) {s t : σ}
    (hs : P s) (h : xs.foldlM step s = .ok t) : P t := by
  induction xs generalizing s with
  | nil =>
    obtain rfl := Except.ok.inj h
    exact hs
  | cons x xs ih =>
    rw [List.foldlM_cons] at h
    obtain ⟨s', hx, hrest⟩ := bind_eq_ok_iff.1 h
    have hs' := hstep x List.mem_cons_self s s' hs hx
    exact ih (fun y hy => hstep y (List.mem_cons_of_mem x hy)) hs' hrest

variable {accepts : α → Prop} (haccepts : ∀ s x, (∃ t, step s x = .ok t) ↔ accepts x)

include haccepts

/-- A fold succeeds when all of its steps are accepted. -/
theorem exists_foldlM_eq_ok_iff (s : σ) : (∃ t, xs.foldlM step s = .ok t) ↔ ∀ x ∈ xs, accepts x := by
  induction xs generalizing s with
  | nil => exact iff_of_true ⟨s, rfl⟩ (List.forall_mem_nil _)
  | cons x xs ih =>
    rw [List.forall_mem_cons, ← haccepts s x]
    constructor
    · rintro ⟨t, h⟩
      rw [List.foldlM_cons] at h
      obtain ⟨s', hx, hrest⟩ := bind_eq_ok_iff.1 h
      exact ⟨⟨s', hx⟩, (ih s').1 ⟨t, hrest⟩⟩
    · rintro ⟨⟨s', hx⟩, hrest⟩
      obtain ⟨t, ht⟩ := (ih s').2 hrest
      exact ⟨t, by rw [List.foldlM_cons, hx, ok_bind, ht]⟩

/-- A fold fails as the first of its steps that is refused. -/
theorem foldlM_eq_error_iff {refuses : α → ε → Prop}
    (hrefuses : ∀ s x e, step s x = .error e ↔ refuses x e) (s : σ) (e : ε) :
    xs.foldlM step s = .error e ↔
      ∃ before x after, xs = before ++ x :: after ∧ (∀ y ∈ before, accepts y) ∧ refuses x e := by
  constructor
  · intro h
    induction xs generalizing s with
    | nil => cases h
    | cons x xs ih =>
      rw [List.foldlM_cons] at h
      rcases bind_eq_error_iff.1 h with hx | ⟨s', hx, hrest⟩
      · exact ⟨[], x, xs, rfl, List.forall_mem_nil _, (hrefuses s x e).1 hx⟩
      · obtain ⟨before, y, after, rfl, hbefore, hy⟩ := ih s' hrest
        have hbefore' := List.forall_mem_cons.2 ⟨(haccepts s x).1 ⟨s', hx⟩, hbefore⟩
        exact ⟨x :: before, y, after, rfl, hbefore', hy⟩
  · rintro ⟨before, x, after, rfl, hbefore, hx⟩
    obtain ⟨s', hs'⟩ := (exists_foldlM_eq_ok_iff haccepts s).2 hbefore
    rw [List.foldlM_append, hs', ok_bind, List.foldlM_cons, (hrefuses s' x e).2 hx]
    rfl

end Fold

end DiceNotation
