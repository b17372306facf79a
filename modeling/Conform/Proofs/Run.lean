import Conform.Scope
import Mathlib.Data.List.Forall2

namespace Conform

section

variable {ε α β : Type}

@[simp]
theorem ok_bind (a : α) (f : α → Except ε β) : (Except.ok a >>= f) = f a :=
  rfl

/-- A sequence ends well when both of its steps do. -/
theorem bind_eq_ok {x : Except ε α} {f : α → Except ε β} {b : β} :
    (x >>= f) = .ok b ↔ ∃ a, x = .ok a ∧ f a = .ok b := by
  cases x with
  | error e => simp [bind, Except.bind]
  | ok a => simp [bind, Except.bind]

theorem pure_eq_ok {a b : α} : (pure a : Except ε α) = .ok b ↔ a = b := by
  simp [pure, Except.pure]

theorem map_eq_ok {x : Except ε α} {f : α → β} {b : β} :
    x.map f = .ok b ↔ ∃ a, x = .ok a ∧ f a = b := by
  cases x with
  | error e => simp [Except.map]
  | ok a => simp [Except.map]

theorem mapM_eq_ok {f : α → Except ε β} {xs : List α} {ys : List β} :
    xs.mapM f = .ok ys ↔ List.Forall₂ (fun x y => f x = .ok y) xs ys := by
  induction xs generalizing ys with
  | nil => simp [pure, Except.pure, eq_comm]
  | cons x xs ih =>
    simp only [List.mapM_cons, bind_eq_ok, pure_eq_ok, ih, List.forall₂_cons_left_iff]
    constructor
    · rintro ⟨y, hy, ys, hys, rfl⟩
      exact ⟨y, ys, hy, hys, rfl⟩
    · rintro ⟨y, ys, hy, hys, rfl⟩
      exact ⟨y, hy, ys, hys, rfl⟩

theorem exists_mem_of_forall₂ {R : α → β → Prop} {xs : List α} {ys : List β}
    (h : List.Forall₂ R xs ys) {x : α} (hx : x ∈ xs) : ∃ y ∈ ys, R x y := by
  induction h with
  | nil => cases hx
  | @cons a b as bs hab _ ih =>
    rcases List.mem_cons.mp hx with rfl | hx
    · exact ⟨b, List.mem_cons_self, hab⟩
    · obtain ⟨y, hy, hxy⟩ := ih hx
      exact ⟨y, List.mem_cons_of_mem b hy, hxy⟩

theorem mem_of_lookup [BEq α] [LawfulBEq α] {a : α} {b : β} {entries : List (α × β)}
    (h : entries.lookup a = some b) : (a, b) ∈ entries := by
  obtain ⟨before, after, rfl, -⟩ := List.lookup_eq_some_iff.mp h
  exact List.mem_append_right before List.mem_cons_self

end

section

variable {σ α β : Type} {s s' : σ}

end

section

variable {σ ε α β : Type} {x : ExceptT ε (StateM σ) α} {s s' : σ}

theorem run_bind_of_ok {a : α} (h : x.run s = (.ok a, s')) (f : α → ExceptT ε (StateM σ) β) :
    (x >>= f).run s = (f a).run s' := by
  change x s = _ at h
  simp only [bind, ExceptT.bind, ExceptT.mk, ExceptT.run, StateT.bind, h]
  rfl

theorem run_bind_of_error {e : ε} (h : x.run s = (.error e, s'))
    (f : α → ExceptT ε (StateM σ) β) : (x >>= f).run s = (.error e, s') := by
  change x s = _ at h
  simp only [bind, ExceptT.bind, ExceptT.mk, ExceptT.run, StateT.bind, h]
  rfl

theorem run_get (f : σ → ExceptT ε (StateM σ) α) (s : σ) :
    ((MonadState.get : ExceptT ε (StateM σ) σ) >>= f).run s = (f s).run s :=
  rfl

/-- The second of two computations with effects is run in the state that the first one leaves. -/
theorem run_bind_fst (x : ExceptT ε (StateM σ) α) (f : α → ExceptT ε (StateM σ) β) (s : σ) :
    ((x >>= f).run s).1 = (x.run s).1 >>= fun a => ((f a).run (x.run s).2).1 := by
  rcases hx : x.run s with ⟨_ | a, s'⟩
  · rw [run_bind_of_error hx]
    rfl
  · rw [run_bind_of_ok hx]
    rfl

end

/-- An evaluation has no other result than a second one, though it may have none. -/
def Below {α : Type} (x y : Run α) : Prop :=
  ∀ a, x = .ok a → y = .ok a

namespace Below

variable {α β : Type}

theorem refl (x : Run α) : Below x x :=
  fun _ h => h

theorem bind {x y : Run α} {f g : α → Run β} (h : Below x y) (hfg : ∀ a, Below (f a) (g a)) :
    Below (x >>= f) (y >>= g) := by
  intro b hb
  obtain ⟨a, ha, hb⟩ := bind_eq_ok.mp hb
  exact bind_eq_ok.mpr ⟨a, h a ha, hfg a b hb⟩

theorem ite {p : Prop} [Decidable p] {x y x' y' : Run α} (h : Below x y) (h' : Below x' y') :
    Below (if p then x else x') (if p then y else y') := by
  split
  next => exact h
  next => exact h'

end Below

/-- One evaluator answers whatever another one answers, and alike. -/
def Extends {α β : Type} (f g : α → Run β) : Prop :=
  ∀ a, Below (f a) (g a)

theorem Extends.mapM {α β : Type} {f g : α → Run β} (h : Extends f g) :
    Extends (List.mapM f) (List.mapM g) := by
  intro xs ys hf
  rw [mapM_eq_ok] at hf ⊢
  exact hf.imp fun x y hxy => h x y hxy

/-- An evaluation that ends wherever another one does, and in a result related to its result, does
so for lists, too. -/
theorem mapM_related {α β : Type} {f g : α → Run β} {R : β → β → Prop} {xs : List α}
    (h : ∀ a ∈ xs, ∀ b, f a = .ok b → ∃ c, g a = .ok c ∧ R b c) {ys : List β}
    (hf : xs.mapM f = .ok ys) : ∃ zs, xs.mapM g = .ok zs ∧ List.Forall₂ R ys zs := by
  simp only [mapM_eq_ok] at hf ⊢
  induction hf with
  | nil => exact ⟨[], .nil, .nil⟩
  | @cons x y xs ys hy _ ih =>
    obtain ⟨hx, hxs⟩ := List.forall_mem_cons.mp h
    obtain ⟨z, hz, hyz⟩ := hx y hy
    obtain ⟨zs, hzs, hrest⟩ := ih hxs
    exact ⟨z :: zs, .cons hz hzs, .cons hyz hrest⟩

/-- What is not so without any depth takes at least one step. -/
theorem exists_fuel_iff {P : Nat → Prop} (h : ¬P 0) : (∃ fuel, P fuel) ↔ ∃ fuel, P (fuel + 1) := by
  constructor
  · rintro ⟨fuel, hfuel⟩
    cases fuel with
    | zero => exact absurd hfuel h
    | succ fuel => exact ⟨fuel, hfuel⟩
  · rintro ⟨fuel, hfuel⟩
    exact ⟨fuel + 1, hfuel⟩

/-- An evaluation whose outcome more depth does not change has one outcome. -/
theorem outcome_unique {α : Type} {f : Nat → Run α} {a b : α}
    (hmono : ∀ {fuel more a}, fuel ≤ more → f fuel = .ok a → f more = .ok a)
    (ha : ∃ fuel, f fuel = .ok a) (hb : ∃ fuel, f fuel = .ok b) : a = b := by
  obtain ⟨fuel, ha⟩ := ha
  obtain ⟨more, hb⟩ := hb
  have hleft := hmono (Nat.le_max_left fuel more) ha
  have hright := hmono (Nat.le_max_right fuel more) hb
  exact Except.ok.inj (hleft.symm.trans hright)

/-- What holds of each of some things from a depth on holds of all of them at one depth. -/
theorem exists_depth {α : Type} {P : Nat → α → Prop} {xs : List α}
    (hmono : ∀ fuel more, fuel ≤ more → ∀ x, P fuel x → P more x)
    (h : ∀ x ∈ xs, ∃ fuel, P fuel x) : ∃ fuel, ∀ x ∈ xs, P fuel x := by
  induction xs with
  | nil => exact ⟨0, by simp⟩
  | cons x xs ih =>
    obtain ⟨hx, hxs⟩ := List.forall_mem_cons.mp h
    obtain ⟨fuel, hfuel⟩ := hx
    obtain ⟨more, hmore⟩ := ih hxs
    refine ⟨max fuel more, List.forall_mem_cons.mpr ⟨?_, fun y hy => ?_⟩⟩
    · exact hmono _ _ (Nat.le_max_left fuel more) x hfuel
    · exact hmono _ _ (Nat.le_max_right fuel more) y (hmore y hy)

/-- Evaluations that all end do so at one depth. -/
theorem mapM_at_depth {α β : Type} {f : Nat → α → Run β} {xs : List α}
    (hmono : ∀ fuel more, fuel ≤ more → Extends (f fuel) (f more))
    (h : ∀ x ∈ xs, ∃ fuel b, f fuel x = .ok b) : ∃ fuel bs, xs.mapM (f fuel) = .ok bs := by
  simp only [mapM_eq_ok]
  induction xs with
  | nil => exact ⟨0, [], .nil⟩
  | cons x xs ih =>
    obtain ⟨hx, hxs⟩ := List.forall_mem_cons.mp h
    obtain ⟨fuel, b, hb⟩ := hx
    obtain ⟨more, bs, hbs⟩ := ih hxs
    refine ⟨max fuel more, b :: bs, .cons ?_ (hbs.imp fun y c hc => ?_)⟩
    · exact hmono fuel _ (Nat.le_max_left fuel more) x b hb
    · exact hmono more _ (Nat.le_max_right fuel more) y c hc

/-- Two computations end alike: in one error, or well and in related results. -/
inductive EndsAlike {ε α β : Type} (R : α → β → Prop) : Except ε α → Except ε β → Prop
  | error (e : ε) : EndsAlike R (.error e) (.error e)
  | ok {a : α} {b : β} (h : R a b) : EndsAlike R (.ok a) (.ok b)

namespace EndsAlike

variable {ε α β γ δ : Type} {R : α → β → Prop} {S : γ → δ → Prop}

theorem bind {x : Except ε α} {y : Except ε β} {f : α → Except ε γ} {g : β → Except ε δ}
    (h : EndsAlike R x y) (hfg : ∀ a b, R a b → EndsAlike S (f a) (g b)) :
    EndsAlike S (x >>= f) (y >>= g) := by
  cases h with
  | error e => exact .error e
  | ok hab => exact hfg _ _ hab

theorem map {x : Except ε α} {y : Except ε β} {f : α → γ} {g : β → δ} (h : EndsAlike R x y)
    (hfg : ∀ a b, R a b → S (f a) (g b)) : EndsAlike S (x.map f) (y.map g) := by
  cases h with
  | error e => exact .error e
  | ok hab => exact .ok (hfg _ _ hab)

theorem refl {R : α → α → Prop} (h : ∀ a, R a a) (x : Except ε α) : EndsAlike R x x := by
  cases x with
  | error e => exact .error e
  | ok a => exact .ok (h a)

theorem imp {x : Except ε α} {y : Except ε β} {R' : α → β → Prop} (h : EndsAlike R x y)
    (himp : ∀ a b, R a b → R' a b) : EndsAlike R' x y := by
  cases h with
  | error e => exact .error e
  | ok hab => exact .ok (himp _ _ hab)

theorem ok_iff {x : Except ε α} {y : Except ε β} {a : α} {b : β} (h : EndsAlike R x y)
    (hab : ∀ a' b', R a' b' → (a' = a ↔ b' = b)) : x = .ok a ↔ y = .ok b := by
  cases h with
  | error e => simp
  | ok hr => rw [Except.ok.injEq, Except.ok.injEq, hab _ _ hr]

theorem exists_right {x : Except ε α} {y : Except ε β} {a : α} (h : EndsAlike R x y)
    (hx : x = .ok a) : ∃ b, y = .ok b ∧ R a b := by
  cases h with
  | error e => cases hx
  | @ok a' b hab =>
    obtain rfl := Except.ok.inj hx
    exact ⟨b, rfl, hab⟩

theorem exists_left {x : Except ε α} {y : Except ε β} {b : β} (h : EndsAlike R x y)
    (hy : y = .ok b) : ∃ a, x = .ok a ∧ R a b := by
  cases h with
  | error e => cases hy
  | @ok a b' hab =>
    obtain rfl := Except.ok.inj hy
    exact ⟨a, rfl, hab⟩

/-- To end alike, result for result, is to be the same. -/
theorem eq {x y : Except ε α} (h : EndsAlike Eq x y) : x = y := by
  cases h with
  | error e => rfl
  | ok hab => rw [hab]

end EndsAlike

end Conform
