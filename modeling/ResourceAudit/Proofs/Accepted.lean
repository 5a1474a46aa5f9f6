/-!
# Accepted results

What it takes that steps of which each may refuse give a result, and that two runs of such steps
are refused alike or give results that go together (`Alike`).
-/

namespace ResourceAudit

variable {ε ε' α β γ δ : Type}

theorem bind_eq_ok {x : Except ε α} {f : α → Except ε β} {b : β} :
    x >>= f = .ok b ↔ ∃ a, x = .ok a ∧ f a = .ok b := by
  cases x with
  | error e => simp [bind, Except.bind]
  | ok a => simp [bind, Except.bind]

theorem pure_eq_ok {a b : α} : (pure a : Except ε α) = .ok b ↔ a = b := by
  simp [pure, Except.pure]

theorem map_eq_ok {x : Except ε α} {f : α → β} {b : β} :
    x.map f = .ok b ↔ ∃ a, x = .ok a ∧ f a = b := by
  cases x with
  | error e => simp [Except.map]
  | ok a => simp [Except.map]

theorem mapError_eq_ok {x : Except ε α} {f : ε → ε'} {a : α} :
    x.mapError f = .ok a ↔ x = .ok a := by
  cases x with
  | error e => exact ⟨nofun, nofun⟩
  | ok b =>
      constructor
      · rintro ⟨⟩
        rfl
      · rintro ⟨⟩
        rfl

theorem toOption_eq_some {x : Except ε α} {a : α} : x.toOption = some a ↔ x = .ok a := by
  cases x with
  | error e => exact ⟨nofun, nofun⟩
  | ok b => simp [Except.toOption]

/-- Where one of several conditions always holds and settles the outcome, the outcome tells which
one holds. -/
theorem outcome_iff {x : Except ε α} {accepted : Prop} {refused : ε → Prop}
    (haccepted : accepted → ∃ a, x = .ok a) (hrefused : ∀ e, refused e → x = .error e)
    (hone : accepted ∨ ∃ e, refused e) :
    ((∃ a, x = .ok a) ↔ accepted) ∧ ∀ e, x = .error e ↔ refused e := by
  cases x with
  | error e =>
      have hnot : ¬ accepted := fun h => by
        obtain ⟨a, ha⟩ := haccepted h
        cases ha
      obtain ⟨e', he'⟩ := hone.resolve_left hnot
      cases hrefused e' he'
      refine ⟨iff_of_false (by simp) hnot, fun e' => ⟨?_, hrefused e'⟩⟩
      rintro ⟨⟩
      exact he'
  | ok a =>
      have hnot : ∀ e, ¬ refused e := fun e h => nomatch hrefused e h
      have h : accepted := hone.resolve_right fun ⟨e, he⟩ => hnot e he
      exact ⟨iff_of_true ⟨a, rfl⟩ h, fun e => iff_of_false nofun (hnot e)⟩

/-- What goes through a list either finds every element in order or stops at the first that is
not. -/
theorem forall_or_first {P : α → Prop} {Q : α → β → Prop} (h : ∀ x, P x ∨ ∃ y, Q x y)
    (xs : List α) :
    (∀ x ∈ xs, P x) ∨ ∃ before x after y,
      xs = before ++ x :: after ∧ (∀ x ∈ before, P x) ∧ Q x y := by
  induction xs with
  | nil => exact .inl (by simp)
  | cons x rest ih =>
      rcases h x with hx | ⟨y, hy⟩
      · rcases ih with hrest | ⟨before, x', after, y, rfl, hbefore, hy⟩
        · exact .inl (List.forall_mem_cons.2 ⟨hx, hrest⟩)
        · exact .inr ⟨x :: before, x', after, y, rfl, List.forall_mem_cons.2 ⟨hx, hbefore⟩, hy⟩
      · exact .inr ⟨[], x, rest, y, rfl, by simp, hy⟩

/-! ## Outcomes alike -/

/-- Both are refused for the same reason, or accepted with results that `R` relates. -/
inductive Alike (R : α → β → Prop) : Except ε α → Except ε β → Prop
  | refused (e : ε) : Alike R (.error e) (.error e)
  | accepted {a : α} {b : β} (h : R a b) : Alike R (.ok a) (.ok b)

namespace Alike

variable {R : α → β → Prop} {S : γ → δ → Prop} {x : Except ε α} {y : Except ε β}

theorem bind {f : α → Except ε γ} {g : β → Except ε δ} (h : Alike R x y)
    (hstep : ∀ a b, R a b → Alike S (f a) (g b)) : Alike S (x >>= f) (y >>= g) := by
  cases h with
  | refused e => exact .refused e
  | accepted h => exact hstep _ _ h

theorem map {f : α → γ} {g : β → δ} (h : Alike R x y) (hstep : ∀ a b, R a b → S (f a) (g b)) :
    Alike S (x.map f) (y.map g) := by
  cases h with
  | refused e => exact .refused e
  | accepted h => exact .accepted (hstep _ _ h)

theorem map_eq {f : α → γ} {g : β → γ} (h : Alike R x y) (hstep : ∀ a b, R a b → f a = g b) :
    x.map f = y.map g := by
  cases h with
  | refused e => rfl
  | accepted h => exact congrArg Except.ok (hstep _ _ h)

end Alike

end ResourceAudit
