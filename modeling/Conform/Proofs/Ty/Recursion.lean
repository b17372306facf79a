import Conform.Proofs.Ty.References

/-!
Recursive types. The induction is on the size of the value first, since what an array, a map or a
schema passes on is smaller, and on the bare references second, which lead in no cycle.
-/

namespace Conform

open Relation

/-- Every entry is found, or known not to be there. -/
def Scope.Total (scope : Scope) : Prop :=
  ∀ number identifier, ∃ found, scope.find number identifier = .ok found

section

variable {scope : Scope}

/-- Where the bare references lead in no cycle, aliases come to an end. -/
theorem Reference.follow_ends (htotal : scope.Total) {k : Nat × String}
    (hacc : Acc (fun b a => scope.Bare a b) k) {r : Reference} (hr : r.entry = k)
    (chain : List Reference) :
    ∃ fuel found, follow scope fuel chain (.reference r) = .ok found ∧
      ∀ ty, found = .ok ty → ∃ k', ReflTransGen scope.Bare k k' ∧ scope.Holds k' ty := by
  induction hacc generalizing r chain with
  | intro k _ ih =>
    subst hr
    by_cases hc : chain.any (·.same r) = true
    · exact ⟨1, .error (cycle chain r), by rw [follow, if_pos hc], fun _ h => by cases h⟩
    obtain ⟨found, hfound⟩ := htotal r.registry r.identifier
    cases found with
    | error e =>
      refine ⟨1, .error e, ?_, fun _ h => by cases h⟩
      rw [follow, if_neg hc, hfound]
      rfl
    | ok ty =>
      have hholds : scope.Holds r.entry ty := hfound
      by_cases hty : ∃ next, ty = .reference next
      · obtain ⟨next, rfl⟩ := hty
        have hbare : scope.Bare r.entry next.entry := Scope.Alias.bare ⟨next, hholds, rfl⟩
        obtain ⟨fuel, found, hfollow, hends⟩ := ih next.entry hbare rfl (chain ++ [r])
        refine ⟨fuel + 1, found, ?_, fun t ht => ?_⟩
        · rw [follow_held hc hholds, hfollow]
        · obtain ⟨k', hpath, hk'⟩ := hends t ht
          exact ⟨k', .head hbare hpath, hk'⟩
      · refine ⟨1, .ok ty, ?_, fun t ht => ?_⟩
        · rw [follow_held hc hholds, follow_other fun next heq => hty ⟨next, heq⟩]
        · obtain rfl := Except.ok.inj ht
          exact ⟨r.entry, .refl, hholds⟩

namespace Ty

/-- A reference does what it stands for. -/
theorem ends_reference {r : Reference} {fuel : Nat} {found : Result Ty} {input : Value}
    (hfound : r.resolve scope fuel = .ok found) (h : ∀ ty, found = .ok ty → ty.Ends scope input) :
    (reference r).Ends scope input := by
  cases found with
  | error e =>
    refine ⟨.refused input e.message, fuel + 1, ?_⟩
    simp only [attempt, hfound]
    rfl
  | ok ty =>
    obtain ⟨o, more, ho⟩ := h ty rfl
    have hfound := Reference.follow_mono (Nat.le_max_left fuel more) hfound
    have ho := attempt_mono (Nat.le_max_right fuel more) ho
    refine ⟨o, max fuel more + 1, ?_⟩
    simp only [attempt, Reference.resolve, hfound, ok_bind, ho]

/-- References end on all values, provided that those that are looked up again for the same value
lead in no cycle. -/
theorem ends_of_acc (htotal : scope.Total) {Reached : Nat × String → Prop}
    (hclosed : ∀ k k', Reached k → scope.Mentions k k' → Reached k')
    (hacc : ∀ k, Reached k → Acc (fun b a => scope.Bare a b) k)
    (hsteady : ∀ k ty, Reached k → scope.Holds k ty → ty.Steady) {r : Reference}
    (hr : Reached r.entry) (input : Value) : (reference r).Ends scope input := by
  have hpath : ∀ {k k'}, Reached k → ReflTransGen scope.Bare k k' → Reached k' := by
    intro k k' hk path
    induction path with
    | refl => exact hk
    | tail _ step ih => exact hclosed _ _ ih step.mentions
  induction hn : sizeOf input using Nat.strongRecOn generalizing input r with
  | ind n ihsize =>
    subst hn
    -- Any number of steps between references counts as one, since aliases are followed at once.
    have hbelow := (hacc _ hr).transGen
    generalize hk : r.entry = k at hr hbelow
    induction hbelow generalizing r with
    | intro k _ ihbare =>
      obtain ⟨fuel, found, hfound, hends⟩ := Reference.follow_ends htotal (hacc k hr) hk []
      refine ends_reference hfound fun ty hty => ?_
      obtain ⟨k', path, hk'⟩ := hends ty hty
      have hr' := hpath hr path
      refine ends_of_references fun next v run => ?_
      rcases (hsteady k' ty hr' hk').looks_up run with ⟨rfl, hnext⟩ | ⟨hlt, hnext⟩
      · have hbare : scope.Bare k' next.entry := ⟨ty, next, hk', hnext, rfl⟩
        have hsteps : TransGen scope.Bare k next.entry := .tail' path hbare
        exact ihbare next.entry (transGen_swap.mp hsteps) rfl (hclosed _ _ hr' hbare.mentions)
      · have hmentions : scope.Mentions k' next.entry := ⟨ty, next, hk', hnext, rfl⟩
        exact ihsize _ hlt (hclosed _ _ hr' hmentions) v rfl

end Ty

end

end Conform
