import Conform.Proofs.Rule.Cause
import Conform.Proofs.Run

/-!
The rule that options compile to. It is the conjunction of theirs: options that are given one after
another add up, and in another order they let the same values pass.
-/

namespace Conform

namespace Rule

/-- Two rules have the same verdict on everything, text included. -/
def Same (r s : Rule) : Prop :=
  ∀ set input, r.judge set input = s.judge set input

theorem Same.and {r r' s s' : Rule} (hr : Same r r') (hs : Same s s') :
    Same (and r s) (and r' s') := by
  intro set input
  rw [judge, judge, hr, hs]

theorem Same.refl (r : Rule) : Same r r :=
  fun _ _ => rfl

theorem Same.symm {r s : Rule} (h : Same r s) : Same s r :=
  fun set input => (h set input).symm

theorem Same.trans {r s t : Rule} (h : Same r s) (h' : Same s t) : Same r t :=
  fun set input => (h set input).trans (h' set input)

end Rule

namespace PredicateSet

/-- Adds the rules of options to a rule. -/
def conjoin (set : PredicateSet) (options : List (String × Value)) (rule : Rule) : Result Rule :=
  options.foldlM (fun rule option => return rule.and (← set.compile option.1 option.2)) rule

section

variable {set judge : PredicateSet} {options a b : List (String × Value)} {v : Value}
  {first rule r : Rule}

theorem conjoin_cons (option : String × Value) :
    set.conjoin (option :: options) rule =
      (set.compile option.1 option.2 >>= fun added => set.conjoin options (rule.and added)) := by
  cases h : set.compile option.1 option.2 with
  | error e => simp [conjoin, h, bind, Except.bind]
  | ok added => simp [conjoin, h]

theorem compileOptions_cons (option : String × Value) :
    set.compileOptions (option :: options) =
      (set.compile option.1 option.2 >>= fun first => set.conjoin options first) :=
  rfl

/-- The rule of a vocabulary's options holds of what the rules of all of them hold of, whoever
judges it. -/
theorem holds_conjoin (h : set.conjoin options first = .ok rule) :
    (rule.judge judge v).holds = true ↔ (first.judge judge v).holds = true ∧
      ∀ o ∈ options, ∃ r, set.compile o.1 o.2 = .ok r ∧ (r.judge judge v).holds = true := by
  induction options generalizing first with
  | nil =>
    obtain rfl := Except.ok.inj h
    simp
  | cons option rest ih =>
    rw [conjoin_cons] at h
    obtain ⟨added, hadded, h⟩ := bind_eq_ok.mp h
    rw [ih h, Rule.holds_and, Bool.and_eq_true, List.forall_mem_cons, and_assoc, hadded]
    simp

theorem holds_compileOptions (h : set.compileOptions options = .ok rule) :
    (rule.judge judge v).holds = true ↔
      ∀ o ∈ options, ∃ r, set.compile o.1 o.2 = .ok r ∧ (r.judge judge v).holds = true := by
  cases options with
  | nil => cases h
  | cons option rest =>
    rw [compileOptions_cons] at h
    obtain ⟨added, hadded, h⟩ := bind_eq_ok.mp h
    rw [holds_conjoin h, List.forall_mem_cons, hadded]
    simp

end

end PredicateSet

end Conform
