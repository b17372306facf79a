import Conform.Proofs.Ast.Compiled
import Conform.Proofs.Rule.Meaning

/-!
The rules of written types that compile. Their predicates would compile as options, but they are
kept as they are spelled, and one that is spelled otherwise than its compiled form is no predicate
of the vocabulary.
-/

namespace Conform

namespace Ast

variable {table : FuncTable} {r : Registry}

/-- Every rule of a written type that compiles has been accepted, at every depth. -/
theorem accepts_compile {a : Ast} {t : Ty} (h : a.compile table r = .ok t) :
    a.Everywhere (RuleNode r.predicates.Accepts) := by
  induction a, t, h using compile_induction with
  | nominal | any | named => exact trivial
  | constrained _ _ _ _ _ hrule ih => exact ⟨hrule, ih⟩
  | sum _ _ _ _ _ _ _ _ ihl ihr | map _ _ _ _ _ _ _ _ ihl ihr => exact ⟨trivial, ihl, ihr⟩
  | schema s types transform _ htypes =>
    refine ⟨trivial, writtenEverywhere_iff.mpr fun k hk => ?_⟩
    obtain ⟨l, -, ⟨-, ih⟩, -⟩ := exists_mem_of_forall₂ htypes hk
    exact ih
  | converted _ _ _ _ _ _ _ ih | defaulted _ _ _ _ _ _ ih | enum _ _ _ _ _ _ ih
  | array _ _ _ _ _ ih | safe _ _ _ _ ih | lax _ _ _ _ ih | maybe _ _ _ _ ih =>
    exact ⟨trivial, ih⟩

end Ast

/-- A predicate would compile as an option of its name and first argument. Where it is spelled like
what it would be compiled to, it says what that means; else it holds of nothing. -/
def Standard.Understood (p : Predicate) : Prop :=
  ∃ q m, compile p.name (p.args.head?.getD (.bool true)) = .ok (.predicate q) ∧
    meaning? q = some m ∧ (p.Spells q → predicates.holds p = m) ∧
    (¬p.Spells q → ∀ v, predicates.holds p v = false)

/-- What the predicates of the rules of a compiled type say of values, with the standard
vocabulary. -/
theorem compile_rules_understood {table : FuncTable} {r : Registry} {a : Ast} {t : Ty} {w : World}
    {depth lookups : Nat} (hr : r.predicates = Standard.predicates)
    (h : (w.compile table r a depth lookups).1 = .ok t) :
    a.Everywhere (Ast.RuleNode fun rule => ∀ p ∈ rule.predicates, Standard.Understood p) := by
  rw [w.compile_fst] at h
  refine (Ast.accepts_compile h).imp fun node hnode => ?_
  cases node with
  | constrained type rule =>
    intro p hp
    rw [hr] at hnode
    obtain ⟨compiled, hcompile⟩ := hnode p hp
    obtain ⟨q, m, rfl, hm, hspelt, helse⟩ := Standard.holds_of_compile hcompile
    exact ⟨q, m, hcompile, hm, hspelt, helse⟩
  | _ => exact trivial

/-- A text of at least two characters; the predicate is asked for with its question mark or not. -/
def longText (name : String) : Ast :=
  .constrained (.nominal .string {}) (.predicate ⟨name, [.int 2]⟩)

theorem compile_longText_understood :
    articleRegistry.predicates = Standard.predicates ∧
    (World.compile {} articleTable articleRegistry (longText "min_size?") 9 9).1 =
      .ok (.constrained (.nominal .string {}) (.predicate ⟨"min_size?", [.int 2]⟩)
        Standard.predicates) ∧
    (longText "min_size?").Everywhere
      (Ast.RuleNode fun rule => ∀ p ∈ rule.predicates, Standard.Understood p) := by
  have hr : articleRegistry.predicates = Standard.predicates := rfl
  have h : (World.compile {} articleTable articleRegistry (longText "min_size?") 9 9).1 =
      .ok (.constrained (.nominal .string {}) (.predicate ⟨"min_size?", [.int 2]⟩)
        Standard.predicates) := by
    rw [World.compile_fst]
    rfl
  exact ⟨hr, h, compile_rules_understood hr h⟩

/-- Without its question mark the predicate is accepted, too, although no option is compiled to it,
and it holds of no text, long as it may be. -/
theorem compile_longText_misspelt :
    (World.compile {} articleTable articleRegistry (longText "min_size") 9 9).1 =
      .ok (.constrained (.nominal .string {}) (.predicate ⟨"min_size", [.int 2]⟩)
        Standard.predicates) ∧
    Standard.meaning? ⟨"min_size", [.int 2]⟩ = none ∧
    (∀ option arg, Standard.compile option arg ≠ .ok (.predicate ⟨"min_size", [.int 2]⟩)) ∧
    articleRegistry.predicates.holds ⟨"min_size?", [.int 2]⟩ (.string "abc") = true ∧
    ∀ v, articleRegistry.predicates.holds ⟨"min_size", [.int 2]⟩ v = false := by
  have hunknown : Standard.arity? "min_size" = none := by decide
  refine ⟨?_, rfl, ?_, by decide, ?_⟩
  · rw [World.compile_fst]
    rfl
  · intro option arg h
    obtain ⟨n, hn⟩ := Standard.arity?_of_compile h
    rw [hunknown] at hn
    cases hn
  · intro v
    exact Standard.holds_of_unknown (p := ⟨"min_size", [.int 2]⟩) hunknown v

end Conform
