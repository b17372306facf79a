import Conform.Rule.Standard

/-!
What a verdict says. A rule holds when it is true with its predicates judged one by one. The text of
a failure names some of them, from left to right; each of these is false, and that they are makes
the rule false, whatever the others are.
-/

namespace Conform.Rule

/-- The predicates of a rule, numbered from left to right. -/
def leaves (rule : Rule) (first : Nat) : List (Predicate × Nat) :=
  rule.predicates.zipIdx first

/-- The truth of a rule, given that of its numbered predicates. -/
def truth (leaf : Predicate × Nat → Bool) : Rule → Nat → Bool
  | predicate p, first => leaf (p, first)
  | and l r, first => l.truth leaf first && r.truth leaf (first + l.predicates.length)
  | or l r, first => l.truth leaf first || r.truth leaf (first + l.predicates.length)

/-- Some predicates of a rule account for its failure. -/
structure Accounts (rule : Rule) (set : PredicateSet) (input : Value) (first : Nat)
    (causes : List (Predicate × Nat)) : Prop where
  sublist : causes.Sublist (rule.leaves first)
  fail : ∀ c ∈ causes, set.holds c.1 input = false
  text : (rule.judge set input).explanation =
    " or ".intercalate (causes.map fun c => c.1.failure input)
  suffice : ∀ leaf, (∀ c ∈ causes, leaf c = false) → rule.truth leaf first = false

section

variable {set : PredicateSet} {input : Value}

@[simp]
theorem holds_and (l r : Rule) :
    ((and l r).judge set input).holds =
      ((l.judge set input).holds && (r.judge set input).holds) := by
  cases h : (l.judge set input).holds with
  | true => simp only [judge, h, if_true, Bool.true_and]
  | false => simp only [judge, h, Bool.false_eq_true, if_false, Bool.false_and]

@[simp]
theorem holds_or (l r : Rule) :
    ((or l r).judge set input).holds =
      ((l.judge set input).holds || (r.judge set input).holds) := by
  cases h : (l.judge set input).holds with
  | true => simp only [judge, h, if_true, Bool.true_or]
  | false =>
    cases h' : (r.judge set input).holds with
    | true => simp only [judge, h, h', Bool.false_eq_true, if_false, if_true, Bool.false_or]
    | false => simp only [judge, h, h', Bool.false_eq_true, if_false, Bool.false_or]

theorem holds_judge (rule : Rule) (first : Nat) :
    (rule.judge set input).holds = rule.truth (fun c => set.holds c.1 input) first := by
  induction rule generalizing first with
  | predicate p => rfl
  | and l r hl hr => rw [holds_and, truth, ← hl, ← hr]
  | or l r hl hr => rw [holds_or, truth, ← hl, ← hr]

theorem truth_of_all {leaf : Predicate × Nat → Bool} (h : ∀ c, leaf c = true) (rule : Rule)
    (first : Nat) : rule.truth leaf first = true := by
  induction rule generalizing first with
  | predicate p => exact h _
  | and l r hl hr => rw [truth, hl, hr, Bool.and_self]
  | or l r hl hr => rw [truth, hl, hr, Bool.or_self]

theorem leaves_join (l r : Rule) (first : Nat) :
    (l.predicates ++ r.predicates).zipIdx first =
      l.leaves first ++ r.leaves (first + l.predicates.length) :=
  List.zipIdx_append

variable {l r rule : Rule} {first : Nat} {causes others : List (Predicate × Nat)}

/-- A failure has a cause, since a rule whose predicates all hold is true. -/
theorem Accounts.ne_nil (h : rule.Accounts set input first causes) : causes ≠ [] := by
  rintro rfl
  have hfalse := h.suffice (fun _ => true) (by simp)
  rw [truth_of_all (fun _ => rfl)] at hfalse
  cases hfalse

theorem accounts_predicate {p : Predicate} (h : set.holds p input = false) :
    (predicate p).Accounts set input first [(p, first)] where
  sublist := List.Sublist.refl _
  fail := by simpa using h
  text := String.intercalate_singleton.symm
  suffice := fun leaf hleaf => hleaf _ List.mem_cons_self

/-- A conjunction fails for what its left side fails for. -/
theorem Accounts.and_left (h : l.Accounts set input first causes)
    (hl : (l.judge set input).holds = false) : (and l r).Accounts set input first causes where
  sublist := by
    rw [leaves, predicates, leaves_join]
    exact h.sublist.trans (List.sublist_append_left _ _)
  fail := h.fail
  text := by rw [← h.text, judge, hl, if_neg Bool.false_ne_true]
  suffice := fun leaf hleaf => by rw [truth, h.suffice leaf hleaf, Bool.false_and]

/-- If its left side holds, it fails for what its right side fails for. -/
theorem Accounts.and_right
    (h : r.Accounts set input (first + l.predicates.length) causes)
    (hl : (l.judge set input).holds = true) : (and l r).Accounts set input first causes where
  sublist := by
    rw [leaves, predicates, leaves_join]
    exact h.sublist.trans (List.sublist_append_right _ _)
  fail := h.fail
  text := by rw [← h.text, judge, hl, if_pos rfl]
  suffice := fun leaf hleaf => by rw [truth, h.suffice leaf hleaf, Bool.and_false]

/-- A disjunction fails for what both of its sides fail for. -/
theorem Accounts.or (h : l.Accounts set input first causes)
    (h' : r.Accounts set input (first + l.predicates.length) others)
    (hl : (l.judge set input).holds = false) (hr : (r.judge set input).holds = false) :
    (or l r).Accounts set input first (causes ++ others) where
  sublist := by
    rw [leaves, predicates, leaves_join]
    exact h.sublist.append h'.sublist
  fail := List.forall_mem_append.mpr ⟨h.fail, h'.fail⟩
  text := by
    have hne : causes.map (fun c => c.1.failure input) ≠ [] := by simpa using h.ne_nil
    have hne' : others.map (fun c => c.1.failure input) ≠ [] := by simpa using h'.ne_nil
    rw [List.map_append, String.intercalate_append_of_ne_nil hne hne', ← h.text, ← h'.text]
    simp only [judge, hl, hr, Bool.false_eq_true, if_false]
  suffice := by
    intro leaf hleaf
    obtain ⟨hc, ho⟩ := List.forall_mem_append.mp hleaf
    rw [truth, h.suffice leaf hc, h'.suffice leaf ho, Bool.or_self]

theorem exists_accounts (h : (rule.judge set input).holds = false) :
    ∃ causes, rule.Accounts set input first causes := by
  induction rule generalizing first with
  | predicate p => exact ⟨_, accounts_predicate h⟩
  | and l r ihl ihr =>
    cases hl : (l.judge set input).holds with
    | false =>
      obtain ⟨causes, hc⟩ := ihl hl
      exact ⟨causes, hc.and_left hl⟩
    | true =>
      rw [judge, hl, if_pos rfl] at h
      obtain ⟨causes, hc⟩ := ihr h
      exact ⟨causes, hc.and_right hl⟩
  | or l r ihl ihr =>
    rw [holds_or, Bool.or_eq_false_iff] at h
    obtain ⟨causes, hc⟩ := ihl h.1
    obtain ⟨others, ho⟩ := ihr h.2
    exact ⟨causes ++ others, hc.or ho h.1 h.2⟩

end

/-- A rule holds exactly when it is true with its predicates judged one by one, and a failure is
accounted for. -/
theorem judge_explained (rule : Rule) (set : PredicateSet) (input : Value) :
    (rule.judge set input).holds = rule.truth (fun c => set.holds c.1 input) 0 ∧
    ((rule.judge set input).holds = false →
      ∃ causes, causes ≠ [] ∧ rule.Accounts set input 0 causes) := by
  refine ⟨rule.holds_judge 0, fun h => ?_⟩
  obtain ⟨causes, hc⟩ : ∃ causes, rule.Accounts set input 0 causes := exists_accounts h
  exact ⟨causes, hc.ne_nil, hc⟩

/-- Integers above five, or values below zero that are integers. -/
def farFromZero : Rule :=
  .or (.and (.predicate ⟨"int?", []⟩) (.predicate ⟨"gt?", [.int 5]⟩))
    (.and (.predicate ⟨"lt?", [.int 0]⟩) (.predicate ⟨"int?", []⟩))

example : (farFromZero.judge Standard.predicates (.int 3)).explanation =
    "gt?(5, 3) failed or lt?(0, 3) failed" := by
  decide

theorem farFromZero_explained :
    (farFromZero.judge Standard.predicates (.int 3)).holds = false ∧
    ∃ causes, causes ≠ [] ∧ farFromZero.Accounts Standard.predicates (.int 3) 0 causes :=
  ⟨rfl, (judge_explained farFromZero Standard.predicates (.int 3)).2 rfl⟩

end Conform.Rule
