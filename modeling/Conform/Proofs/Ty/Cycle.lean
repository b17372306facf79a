import Conform.Proofs.Ty.References
import Conform.World

/-!
References that are looked up again for the same value. A cycle of aliases is found out and
reported; one that has any other layer in it is not, and there is no end to it.
-/

namespace Conform

open Relation

namespace Ty

/-- A conversion that ends has made those that it comes to within the same value end, too. -/
theorem Within.coerces {scope : Scope} {a b : Ty × Value} (step : Within scope a b) {fuel : Nat}
    {res : Result Value} (h : coerce scope fuel a.1 a.2 = .ok res) :
    ∃ res', coerce scope fuel b.1 b.2 = .ok res' := by
  cases fuel with
  | zero => simp [coerce] at h
  | succ fuel =>
    suffices hinner : ∃ res', coerce scope fuel b.1 b.2 = .ok res' by
      obtain ⟨res', hres⟩ := hinner
      exact ⟨res', coerce_mono (Nat.le_succ fuel) hres⟩
    cases step with
    | constrained | safe | lax =>
      obtain ⟨res', hres, -⟩ := bind_eq_ok.mp h
      exact ⟨res', hres⟩
    | converted hv =>
      simp only [coerce, hv] at h
      exact ⟨res, h⟩
    | left =>
      obtain ⟨o, ho, -⟩ := bind_eq_ok.mp h
      exact coerce_ends ho
    | right hleft =>
      obtain ⟨o, ho, h⟩ := bind_eq_ok.mp h
      obtain rfl := hleft.unique ⟨fuel, ho⟩
      exact ⟨res, h⟩
    | defaulted hinput =>
      simp only [coerce, hinput, Bool.false_eq_true, if_false] at h
      obtain ⟨res', hres, -⟩ := bind_eq_ok.mp h
      exact ⟨res', hres⟩
    | enum => exact ⟨res, h⟩
    | maybe hinput =>
      simp only [coerce, hinput, Bool.false_eq_true, if_false] at h
      exact ⟨res, h⟩

theorem coerces_of_within {scope : Scope} {a b : Ty × Value}
    (run : ReflTransGen (Within scope) a b) {fuel : Nat} {res : Result Value}
    (h : coerce scope fuel a.1 a.2 = .ok res) : ∃ res', coerce scope fuel b.1 b.2 = .ok res' := by
  induction run with
  | refl => exact ⟨res, h⟩
  | tail _ step ih =>
    obtain ⟨res', hres⟩ := ih
    exact step.coerces hres

theorem eq_of_within_reference {scope : Scope} {r : Reference} {input : Value} {b : Ty × Value}
    (run : ReflTransGen (Within scope) (reference r, input) b) : b = (reference r, input) := by
  rcases run.cases_head with heq | ⟨c, step, -⟩
  · exact heq.symm
  · cases step

end Ty

namespace Scope

/-- Evaluating an entry on a value comes to look up an entry for a value, without having entered an
item, an entry of a hash or a key. -/
def LooksUp (scope : Scope) (a b : (Nat × String) × Value) : Prop :=
  ∃ ty r, scope.Holds a.1 ty ∧
    ReflTransGen (Ty.Within scope) (ty, a.2) (.reference r, b.2) ∧ r.entry = b.1

variable {scope : Scope} {k k' : Nat × String} {a b : (Nat × String) × Value}

theorem Alias.looksUp (h : scope.Alias k k') (input : Value) :
    scope.LooksUp (k, input) (k', input) := by
  obtain ⟨r, hr, hk⟩ := h
  exact ⟨.reference r, r, hr, .refl, hk⟩

/-- An alias looks up nothing but what it is an alias of. -/
theorem Alias.looksUp_eq (h : scope.Alias a.1 k) (step : scope.LooksUp a b) : b = (k, a.2) := by
  obtain ⟨r, hr, rfl⟩ := h
  obtain ⟨ty, r', hty, run, hb⟩ := step
  obtain rfl := hty.unique hr
  have heq := Ty.eq_of_within_reference run
  obtain ⟨hr', hvalue⟩ := Prod.mk.inj heq
  rw [Ty.reference.inj hr'] at hb
  exact Prod.ext hb.symm hvalue

/-- A cycle of aliases is never left. -/
theorem LooksUp.alias_cycle (step : scope.LooksUp a b) (h : TransGen scope.Alias a.1 a.1) :
    TransGen scope.Alias b.1 b.1 := by
  obtain ⟨k, first, rest⟩ := TransGen.head'_iff.mp h
  rw [first.looksUp_eq step]
  exact .tail' rest first

/-- An entry is looked up again for the same value, and not for being an alias of itself. -/
structure Cycles (scope : Scope) (a : (Nat × String) × Value) : Prop where
  again : TransGen scope.LooksUp a a
  notAlias : ¬TransGen scope.Alias a.1 a.1

theorem Cycles.next (h : scope.Cycles a) : ∃ b, scope.LooksUp a b ∧ scope.Cycles b := by
  obtain ⟨b, first, rest⟩ := TransGen.head'_iff.mp h.again
  refine ⟨b, first, .tail' rest first, fun hb => h.notAlias ?_⟩
  clear h first
  induction rest using ReflTransGen.head_induction_on with
  | refl => exact hb
  | head step _ ih => exact ih (step.alias_cycle hb)

/-- Aliases lead from an entry to another one, in this many steps and not before. -/
inductive Returns (scope : Scope) (target : Nat × String) : Nat → Nat × String → Prop
  | here : Returns scope target 0 target
  | step {n : Nat} {k k' : Nat × String} (hk : k ≠ target) (first : scope.Alias k k')
    (rest : Returns scope target n k') : Returns scope target (n + 1) k

theorem Returns.unique {target : Nat × String} {m n : Nat} (h : scope.Returns target m k)
    (h' : scope.Returns target n k) : m = n := by
  induction h generalizing n with
  | here =>
    cases h' with
    | here => rfl
    | step hk => exact absurd rfl hk
  | step hk first _ ih =>
    cases h' with
    | here => exact absurd rfl hk
    | step _ first' rest' =>
      rw [first.unique first'] at ih
      rw [ih rest']

theorem exists_returns {target : Nat × String} (h : ReflTransGen scope.Alias k target) :
    ∃ n, scope.Returns target n k := by
  induction h using ReflTransGen.head_induction_on with
  | refl => exact ⟨0, .here⟩
  | @head k _ first _ ih =>
    by_cases hk : k = target
    · exact ⟨0, hk ▸ .here⟩
    · obtain ⟨n, hn⟩ := ih
      exact ⟨n + 1, .step hk first hn⟩

end Scope

namespace Reference

variable {scope : Scope} {r : Reference}

/-- Following aliases that lead back to the first one ends there. -/
theorem follow_returns {target k : Nat × String} {n : Nat} (h : scope.Returns target n k)
    {b : Reference} (hb : b.entry = k) {chain : List Reference} (hfirst : r ∈ chain)
    (hr : r.entry = target)
    (hchain : ∀ c ∈ chain, c.entry = target ∨ ∃ m, n < m ∧ scope.Returns target m c.entry) :
    ∃ fuel rest next, next.entry = target ∧
      follow scope fuel chain (.reference b) = .ok (.error (cycle (chain ++ rest) next)) := by
  induction h generalizing b chain with
  | here =>
    have hc : chain.any (·.same b) = true :=
      List.any_eq_true.mpr ⟨r, hfirst, same_iff.mpr (hr.trans hb.symm)⟩
    exact ⟨1, [], b, hb, by rw [follow, if_pos hc, List.append_nil]⟩
  | @step n k k' hk first rest ih =>
    have hreturns : scope.Returns target (n + 1) b.entry := hb ▸ .step hk first rest
    -- No alias on the way is met twice, since each has its own distance to the target.
    have hc : ¬chain.any (·.same b) = true := by
      intro hany
      obtain ⟨c, hmem, hsame⟩ := List.any_eq_true.mp hany
      have hentry := same_iff.mp hsame
      rcases hchain c hmem with htarget | ⟨m, hlt, hm⟩
      · exact hk (hb.symm.trans (hentry.symm.trans htarget))
      · rw [hentry] at hm
        have hmn := hm.unique hreturns
        omega
    obtain ⟨next, hholds, hnext⟩ := first
    have hmore : ∀ c ∈ chain ++ [b],
        c.entry = target ∨ ∃ m, n < m ∧ scope.Returns target m c.entry := by
      intro c hmem
      rcases List.mem_append.mp hmem with hmem | hmem
      · rcases hchain c hmem with htarget | ⟨m, hlt, hm⟩
        · exact Or.inl htarget
        · exact Or.inr ⟨m, by omega, hm⟩
      · obtain rfl := List.mem_singleton.mp hmem
        exact Or.inr ⟨n + 1, by omega, hreturns⟩
    obtain ⟨fuel, rest, last, hlast, hfollow⟩ :=
      ih hnext (List.mem_append_left [b] hfirst) hmore
    refine ⟨fuel + 1, b :: rest, last, hlast, ?_⟩
    rw [← hb] at hholds
    rw [follow_held hc hholds, hfollow, List.append_cons chain b rest]

/-- A cycle of aliases is found where it closes. -/
theorem resolve_cycle (h : TransGen scope.Alias r.entry r.entry) :
    ∃ fuel rest next, next.same r = true ∧
      r.resolve scope fuel = .ok (.error (cycle (r :: rest) next)) := by
  obtain ⟨k, ⟨next, hholds, hnext⟩, rest⟩ := TransGen.head'_iff.mp h
  obtain ⟨n, hn⟩ := Scope.exists_returns rest
  have hchain : ∀ c ∈ [r], c.entry = r.entry ∨
      ∃ m, n < m ∧ scope.Returns r.entry m c.entry := by
    intro c hc
    obtain rfl := List.mem_singleton.mp hc
    exact Or.inl rfl
  obtain ⟨fuel, rest, last, hlast, hfollow⟩ :=
    follow_returns hn hnext List.mem_cons_self rfl hchain
  refine ⟨fuel + 1, rest, last, same_iff.mpr hlast, ?_⟩
  rw [resolve, follow_held (by simp) hholds]
  exact hfollow

example : (cycle [⟨0, "a", {}⟩, ⟨0, "b", {}⟩] ⟨0, "a", {}⟩).message =
    "internal error: reference cycle: a -> b -> a" := by
  decide

/-- Aliases that lead into another cycle come to the type of an entry on it. -/
theorem follow_cycles {input : Value} (h : scope.Cycles (r.entry, input))
    {chain : List Reference} (hchain : ∀ c ∈ chain, TransGen scope.Alias c.entry r.entry)
    {fuel : Nat} {found : Result Ty} (hf : follow scope fuel chain (.reference r) = .ok found) :
    ∃ ty k, found = .ok ty ∧ scope.Holds k ty ∧ scope.Cycles (k, input) := by
  induction fuel generalizing r chain with
  | zero => simp [follow] at hf
  | succ fuel ih =>
    have hc : ¬chain.any (·.same r) = true := by
      intro hany
      obtain ⟨c, hmem, hsame⟩ := List.any_eq_true.mp hany
      have hc := hchain c hmem
      rw [same_iff.mp hsame] at hc
      exact h.notAlias hc
    obtain ⟨b, step, hb⟩ := h.next
    obtain ⟨ty, -, hty, -, -⟩ := id step
    rw [follow_held hc hty] at hf
    by_cases hnext : ∃ next, ty = .reference next
    · obtain ⟨next, rfl⟩ := hnext
      have halias : scope.Alias r.entry next.entry := ⟨next, hty, rfl⟩
      rw [Scope.Alias.looksUp_eq (a := (r.entry, input)) halias step] at hb
      refine ih hb (fun c hmem => ?_) hf
      rcases List.mem_append.mp hmem with hmem | hmem
      · exact (hchain c hmem).tail halias
      · obtain rfl := List.mem_singleton.mp hmem
        exact .single halias
    · rw [follow_other fun next heq => hnext ⟨next, heq⟩] at hf
      exact ⟨ty, r.entry, (Except.ok.inj hf).symm, hty, h⟩

end Reference

namespace Ty

variable {scope : Scope} {r : Reference} {input : Value}

/-- There is no end to other cycles: each round takes some depth. -/
theorem not_coerces_of_cycles (h : scope.Cycles (r.entry, input)) :
    ¬∃ res, (reference r).Coerces scope input res := by
  rintro ⟨res, fuel, hres⟩
  induction fuel generalizing r input res with
  | zero => simp [coerce] at hres
  | succ fuel ih =>
    obtain ⟨found, hfound, hres⟩ := bind_eq_ok.mp hres
    have hnil : ∀ c ∈ ([] : List Reference), TransGen scope.Alias c.entry r.entry := by simp
    obtain ⟨ty, k, rfl, hty, hk⟩ := Reference.follow_cycles h hnil hfound
    obtain ⟨⟨k', v⟩, ⟨ty', next, hty', run, rfl⟩, hnext⟩ := hk.next
    obtain rfl := hty'.unique hty
    obtain ⟨res', hres'⟩ := coerces_of_within run hres
    exact ih hnext res' hres'

theorem not_attempts_of_cycles (h : scope.Cycles (r.entry, input)) :
    ¬∃ o, (reference r).Attempts scope input o :=
  fun hends => not_coerces_of_cycles h (Ends.coerces hends)

end Ty

/-- What becomes of an entry that would be looked up again for the same value. If there are only
aliases on the way, then calling and trying end, with an internal error where the cycle closes. If
there is any other layer on it, neither of them ever ends. -/
theorem World.cycle_reported_or_endless (w : World) {r : Reference} {input : Value}
    (h : TransGen w.scope.LooksUp (r.entry, input) (r.entry, input)) :
    (TransGen w.scope.Alias r.entry r.entry →
      ∃ rest next, next.same r = true ∧
        (Ty.reference r).Coerces w.scope input (.error (Reference.cycle (r :: rest) next)) ∧
        (Ty.reference r).Attempts w.scope input
          (.refused input (Reference.cycle (r :: rest) next).message)) ∧
    (¬TransGen w.scope.Alias r.entry r.entry →
      (¬∃ res, (Ty.reference r).Coerces w.scope input res) ∧
        ¬∃ o, (Ty.reference r).Attempts w.scope input o) := by
  constructor
  · intro halias
    obtain ⟨fuel, rest, next, hnext, hfound⟩ := Reference.resolve_cycle halias
    refine ⟨rest, next, hnext, ⟨fuel + 1, ?_⟩, fuel + 1, ?_⟩
    · simp only [Ty.coerce, hfound]
      rfl
    · simp only [Ty.attempt, hfound]
      rfl
  · intro hother
    have hcycles : w.scope.Cycles (r.entry, input) := ⟨h, hother⟩
    exact ⟨Ty.not_coerces_of_cycles hcycles, Ty.not_attempts_of_cycles hcycles⟩

/-- Two aliases of each other. -/
def aliasWorld : World where
  registries :=
    [{ number := 0
       types := [("a", .reference ⟨0, "b", {}⟩), ("b", .reference ⟨0, "a", {}⟩)] }]
  next := 1

theorem cycle_reported_aliasWorld :
    TransGen aliasWorld.scope.LooksUp ((0, "a"), .nil) ((0, "a"), .nil) ∧
    TransGen aliasWorld.scope.Alias (0, "a") (0, "a") ∧
    ∃ rest next, Reference.same next ⟨0, "a", {}⟩ = true ∧
      (Ty.reference ⟨0, "a", {}⟩).Coerces aliasWorld.scope .nil
        (.error (Reference.cycle (⟨0, "a", {}⟩ :: rest) next)) ∧
      (Ty.reference ⟨0, "a", {}⟩).Attempts aliasWorld.scope .nil
        (.refused .nil (Reference.cycle (⟨0, "a", {}⟩ :: rest) next).message) := by
  have hab : aliasWorld.scope.Alias (0, "a") (0, "b") := ⟨⟨0, "b", {}⟩, rfl, rfl⟩
  have hba : aliasWorld.scope.Alias (0, "b") (0, "a") := ⟨⟨0, "a", {}⟩, rfl, rfl⟩
  have hcycle : TransGen aliasWorld.scope.LooksUp ((0, "a"), .nil) ((0, "a"), .nil) :=
    .tail (.single (hab.looksUp .nil)) (hba.looksUp .nil)
  have halias : TransGen aliasWorld.scope.Alias (0, "a") (0, "a") := .tail (.single hab) hba
  exact ⟨hcycle, halias,
    (aliasWorld.cycle_reported_or_endless (r := ⟨0, "a", {}⟩) hcycle).1 halias⟩

/-- An entry that is looked up again as what it may be. -/
def maybeWorld : World where
  registries := [{ number := 0, types := [("a", .maybe (.reference ⟨0, "a", {}⟩))] }]
  next := 1

/-- One layer in a cycle is enough for it never to be reported. -/
theorem cycle_unreported_maybeWorld :
    TransGen maybeWorld.scope.LooksUp ((0, "a"), .int 1) ((0, "a"), .int 1) ∧
    (¬∃ res, (Ty.reference ⟨0, "a", {}⟩).Coerces maybeWorld.scope (.int 1) res) ∧
    ¬∃ o, (Ty.reference ⟨0, "a", {}⟩).Attempts maybeWorld.scope (.int 1) o := by
  have hmaybe : maybeWorld.scope.Holds (0, "a") (.maybe (.reference ⟨0, "a", {}⟩)) := rfl
  have hcycle : TransGen maybeWorld.scope.LooksUp ((0, "a"), .int 1) ((0, "a"), .int 1) :=
    .single ⟨_, ⟨0, "a", {}⟩, hmaybe, .single (.maybe rfl), rfl⟩
  have hother : ¬TransGen maybeWorld.scope.Alias (0, "a") (0, "a") := by
    intro h
    obtain ⟨k, ⟨r, hr, -⟩, -⟩ := TransGen.head'_iff.mp h
    cases hr.unique hmaybe
  have hcycles : maybeWorld.scope.Cycles (Reference.entry ⟨0, "a", {}⟩, .int 1) :=
    ⟨hcycle, hother⟩
  exact ⟨hcycle, Ty.not_coerces_of_cycles hcycles, Ty.not_attempts_of_cycles hcycles⟩

/-- It is never found out what an entry is about that may be itself. -/
theorem primitive_maybeWorld (fuel : Nat) (p : Primitive) :
    Ty.primitive maybeWorld.scope fuel (.reference ⟨0, "a", {}⟩) ≠ .ok p := by
  induction fuel using Nat.strongRecOn with
  | ind fuel ih =>
    intro h
    have hmaybe : maybeWorld.scope.Holds (0, "a") (.maybe (.reference ⟨0, "a", {}⟩)) := rfl
    cases fuel with
    | zero => cases h
    | succ fuel =>
      simp only [Ty.primitive, Reference.resolve, bind_eq_ok] at h
      obtain ⟨found, hfound, h⟩ := h
      cases fuel with
      | zero => cases hfound
      | succ fuel =>
        rw [Reference.follow_held (by simp) hmaybe,
          Reference.follow_other (fun _ heq => by cases heq)] at hfound
        cases hfound
        exact ih fuel (by omega) h

end Conform
