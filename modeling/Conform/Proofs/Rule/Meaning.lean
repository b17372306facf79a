import Conform.Proofs.Rule.Standard

/-!
What the predicates of the standard vocabulary say of a value. An option is compiled to a predicate
that has a meaning, and other predicates hold of what their compiled form says, if they are spelled
like it, and of nothing otherwise.
-/

namespace Conform

/-- A predicate has the full name of another and begins with its arguments. -/
def Predicate.Spells (p q : Predicate) : Prop :=
  p.name = q.name ∧ q.args <+: p.args

namespace Standard

/-- What the predicates without arguments say of a value. -/
def plainMeaning? : String → Option (Value → Bool)
  | "nil?" => some Value.isNil
  | "filled?" => some fun v => !v.isAbsent && v.size? ≠ some 0
  | "empty?" => some fun v => v.isNil || v.size? = some 0
  | "odd?" => some fun v => v.int?.any fun n => n.toInt % 2 ≠ 0
  | "even?" => some fun v => v.int?.any fun n => n.toInt % 2 = 0
  | "true?" => some (· == .bool true)
  | "false?" => some (· == .bool false)
  | "bool?" => some fun v => v.bool?.isSome
  | "int?" => some fun v => v.int?.isSome
  | "str?" => some fun v => v.string?.isSome
  | _ => none

/-- What the other predicates say of a value, if they can do anything with their argument. -/
def boundMeaning? : String → Value → Option (Value → Bool)
  | "type?", .string name => (Primitive.ofName? name).map Primitive.admits
  | "eql?", w => some (· == w)
  | "not_eql?", w => some (· != w)
  | "included_in?", .array items => some fun v => items.any (· == v)
  | "excluded_from?", .array items => some fun v => items.all (· != v)
  | "gt?", bound => some fun v => ordered v bound (·.isGT)
  | "gteq?", bound => some fun v => ordered v bound (·.isGE)
  | "lt?", bound => some fun v => ordered v bound (·.isLT)
  | "lteq?", bound => some fun v => ordered v bound (·.isLE)
  | "size?", .int n => some fun v => sized v (· = n.toInt)
  | "min_size?", .int n => some fun v => sized v (n.toInt ≤ ·)
  | "max_size?", .int n => some fun v => sized v (· ≤ n.toInt)
  | "format?", .string source =>
    (Pattern.ofString? source).map fun pattern v => v.string?.any pattern.isMatch
  | _, _ => none

/-- What a predicate says of a value, provided that it has the name of one and exactly the arguments
that one takes. -/
def meaning? (p : Predicate) : Option (Value → Bool) :=
  match p.args with
  | [] => plainMeaning? p.name
  | [arg] => boundMeaning? p.name arg
  | _ => none

theorem mem_arities {name : String} {n : Nat} (h : arity? name = some n) :
    (name, n) ∈ arities := by
  obtain ⟨before, after, heq, -⟩ := List.lookup_eq_some_iff.mp h
  rw [heq]
  exact List.mem_append_right _ List.mem_cons_self

/-- Names that are known have their question mark. -/
theorem predicateName_of_arity? {name : String} {n : Nat} (h : arity? name = some n) :
    predicateName name = name := by
  have hall : ∀ e ∈ arities, predicateName e.1 = e.1 := by decide
  exact hall _ (mem_arities h)

/-- The predicates that take an argument. -/
def boundNames : List String :=
  ["type?", "format?", "included_in?", "excluded_from?", "size?", "min_size?", "max_size?", "eql?",
   "not_eql?", "gt?", "gteq?", "lt?", "lteq?"]

theorem mem_boundNames {name : String} {n : Nat} (h : arity? name = some (n + 1)) :
    name ∈ boundNames := by
  have hall : ∀ e ∈ arities, e.2 ≠ 0 → e.1 ∈ boundNames := by decide
  exact hall _ (mem_arities h) (Nat.succ_ne_zero n)

/-- A name that is not known makes a predicate hold of nothing. -/
theorem holds_of_unknown {p : Predicate} (h : arity? p.name = none) (v : Value) :
    holds p v = false := by
  have hknown : ∀ e ∈ arities, arity? e.1 ≠ none := by decide
  have hunknown : ∀ e ∈ arities, p.name ≠ e.1 := fun e he hname => hknown e he (hname ▸ h)
  simp only [arities, List.forall_mem_cons] at hunknown
  simp [holds, holdsWith, hunknown]

/-- So does a missing argument. -/
theorem holds_of_missing {name : String} {n : Nat} (h : arity? name = some (n + 1)) (v : Value) :
    holds ⟨name, []⟩ v = false := by
  have hname := mem_boundNames h
  simp only [boundNames, List.mem_cons, List.not_mem_nil, or_false] at hname
  rcases hname with rfl | rfl | rfl | rfl | rfl | rfl | rfl | rfl | rfl | rfl | rfl | rfl | rfl
  all_goals rfl

theorem plainMeaning?_of_arity? {name : String} (h : arity? name = some 0) :
    ∃ m, plainMeaning? name = some m ∧ ∀ args, holds ⟨name, args⟩ = m := by
  have hall : ∀ e ∈ arities, e.2 = 0 → e.1 ∈ ["nil?", "filled?", "empty?", "odd?", "even?",
      "true?", "false?", "bool?", "int?", "str?"] := by decide
  have hname := hall _ (mem_arities h) rfl
  simp only [List.mem_cons, List.not_mem_nil, or_false] at hname
  rcases hname with rfl | rfl | rfl | rfl | rfl | rfl | rfl | rfl | rfl | rfl
  all_goals
    refine ⟨_, rfl, fun args => ?_⟩
    funext v
    try rfl
  -- Only of being filled is something said in other words.
  show (!v.isAbsent && v.size?.all (0 < ·)) = (!v.isAbsent && v.size? ≠ some 0)
  cases v.size? with
  | none => rfl
  | some n => simp [Nat.pos_iff_ne_zero]

section

variable {arg : Value}

theorem class_of_refusal? (h : refusal? Formats.standard.valid "type?" arg = none) :
    ∃ text c, arg = .string text ∧ Primitive.ofName? text = some c := by
  cases arg with
  | string text =>
    cases hc : Primitive.ofName? text with
    | none => simp [refusal?, Value.string?, hc] at h
    | some c => exact ⟨text, c, rfl, hc⟩
  | _ => simp [refusal?, Value.string?] at h

theorem pattern_of_refusal? (h : refusal? Formats.standard.valid "format?" arg = none) :
    ∃ text pattern, arg = .string text ∧ Pattern.ofString? text = some pattern := by
  cases arg with
  | string text =>
    cases hp : Pattern.ofString? text with
    | none => simp [refusal?, Formats.valid, Formats.standard, Value.string?, hp] at h
    | some pattern => exact ⟨text, pattern, rfl, hp⟩
  | _ => simp [refusal?, Value.string?] at h

theorem array_of_refusal? {name : String} (hname : name ∈ ["included_in?", "excluded_from?"])
    (h : refusal? Formats.standard.valid name arg = none) : ∃ items, arg = .array items := by
  cases arg with
  | array items => exact ⟨items, rfl⟩
  | _ =>
    simp only [List.mem_cons, List.not_mem_nil, or_false] at hname
    rcases hname with rfl | rfl
    all_goals simp [refusal?, Value.array?] at h

theorem int_of_refusal? {name : String} (hname : name ∈ ["size?", "min_size?", "max_size?"])
    (h : refusal? Formats.standard.valid name arg = none) : ∃ n, arg = .int n := by
  cases arg with
  | int n => exact ⟨n, rfl⟩
  | _ =>
    simp only [List.mem_cons, List.not_mem_nil, or_false] at hname
    rcases hname with rfl | rfl | rfl
    all_goals simp [refusal?, Value.int?] at h

theorem boundMeaning?_of_arity? {name : String} {n : Nat} (h : arity? name = some (n + 1))
    (harg : refusal? Formats.standard.valid name arg = none) :
    ∃ m, boundMeaning? name arg = some m ∧ ∀ rest, holds ⟨name, arg :: rest⟩ = m := by
  have hname := mem_boundNames h
  simp only [boundNames, List.mem_cons, List.not_mem_nil, or_false] at hname
  rcases hname with rfl | rfl | hname
  · obtain ⟨text, c, rfl, hc⟩ := class_of_refusal? harg
    have hmeaning : boundMeaning? "type?" (.string text) =
        (Primitive.ofName? text).map Primitive.admits := rfl
    refine ⟨c.admits, by rw [hmeaning, hc, Option.map_some], fun rest => ?_⟩
    funext v
    show ((Primitive.ofName? text).any fun d => d.admits v) = c.admits v
    rw [hc, Option.any_some]
  · obtain ⟨text, pattern, rfl, hp⟩ := pattern_of_refusal? harg
    have hmeaning : boundMeaning? "format?" (.string text) =
        (Pattern.ofString? text).map fun pattern v => v.string?.any pattern.isMatch := rfl
    refine ⟨_, by rw [hmeaning, hp, Option.map_some], fun rest => ?_⟩
    have hmatch : Formats.standard.formatted text = pattern.isMatch := by
      funext s
      simp only [Formats.formatted, Formats.standard, hp, Option.any_some]
    funext v
    show v.string?.any (Formats.standard.formatted text) = v.string?.any pattern.isMatch
    rw [hmatch]
  rcases hname with rfl | rfl | hname
  · obtain ⟨items, rfl⟩ := array_of_refusal? (by simp) harg
    exact ⟨_, rfl, fun rest => rfl⟩
  · obtain ⟨items, rfl⟩ := array_of_refusal? (by simp) harg
    refine ⟨_, rfl, fun rest => ?_⟩
    funext v
    exact List.not_any_eq_all_not
  rcases hname with rfl | rfl | rfl | hname
  iterate 3
    obtain ⟨n, rfl⟩ := int_of_refusal? (by simp) harg
    exact ⟨_, rfl, fun rest => rfl⟩
  rcases hname with rfl | rfl | rfl | rfl | rfl | rfl
  all_goals exact ⟨_, rfl, fun rest => rfl⟩

end

/-- An option is compiled to a single predicate, of its full name. -/
theorem compile_eq_ok {option : String} {arg : Value} {rule : Rule}
    (h : compile option arg = .ok rule) :
    (arity? (predicateName option) = some 0 ∧ rule = .predicate ⟨predicateName option, []⟩) ∨
      ∃ n, arity? (predicateName option) = some (n + 1) ∧
        refusal? Formats.standard.valid (predicateName option) arg = none ∧
        rule = .predicate ⟨predicateName option, [arg]⟩ := by
  unfold compile compileWith at h
  dsimp only at h
  split at h
  next => simp at h
  next harity =>
    split at h
    next => exact Or.inl ⟨harity, (Except.ok.inj h).symm⟩
    next => simp at h
  next n hn harity =>
    obtain ⟨n, rfl⟩ := Nat.exists_eq_succ_of_ne_zero hn
    split at h
    next => simp at h
    next hnone => exact Or.inr ⟨n, harity, hnone, (Except.ok.inj h).symm⟩

/-- Nothing but known predicates comes from options. -/
theorem arity?_of_compile {option : String} {arg : Value} {p : Predicate}
    (h : compile option arg = .ok (.predicate p)) : ∃ n, arity? p.name = some n := by
  rcases compile_eq_ok h with ⟨harity, heq⟩ | ⟨n, harity, -, heq⟩
  all_goals
    obtain rfl := Rule.predicate.inj heq
    exact ⟨_, harity⟩

/-- A predicate whose question mark is left out is not known. -/
theorem arity?_of_unmarked {name : String} (h : name ≠ predicateName name) :
    arity? name = none := by
  cases ha : arity? name with
  | none => rfl
  | some n => exact absurd (predicateName_of_arity? ha).symm h

/-- A predicate that would compile as an option says what its compiled form means, but only if it is
spelled like that; else it holds of nothing. -/
theorem holds_of_compile {p : Predicate} {rule : Rule}
    (h : compile p.name (p.args.head?.getD (.bool true)) = .ok rule) :
    ∃ q m, rule = .predicate q ∧ meaning? q = some m ∧ (p.Spells q → holds p = m) ∧
      (¬p.Spells q → ∀ v, holds p v = false) := by
  obtain ⟨name, args⟩ := p
  rcases compile_eq_ok h with ⟨harity, rfl⟩ | ⟨n, harity, hnone, rfl⟩
  · obtain ⟨m, hm, hholds⟩ := plainMeaning?_of_arity? harity
    refine ⟨_, m, rfl, hm, fun hp => ?_, fun hp v => ?_⟩
    · obtain ⟨hname, -⟩ := hp
      dsimp only at hname
      rw [hname, hholds]
    · exact holds_of_unknown (arity?_of_unmarked fun hname => hp ⟨hname, List.nil_prefix⟩) v
  · obtain ⟨m, hm, hholds⟩ := boundMeaning?_of_arity? harity hnone
    refine ⟨_, m, rfl, hm, fun hp => ?_, fun hp v => ?_⟩
    · obtain ⟨hname, rest, hargs⟩ := hp
      dsimp only at hname hargs
      rw [hname, ← hargs]
      exact hholds rest
    · by_cases hname : name = predicateName name
      · rw [← hname] at harity
        cases args with
        | nil => exact holds_of_missing harity v
        | cons arg rest => exact absurd ⟨hname, rest, rfl⟩ hp
      · exact holds_of_unknown (arity?_of_unmarked hname) v

end Standard

end Conform
