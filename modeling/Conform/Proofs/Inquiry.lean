import Conform.Proofs.Registry.Standing
import Conform.Proofs.Registry.References

/-!
Evaluations that look entries up when they need them. What is asked next depends on the answers so
far, so such an evaluation is a tree of questions. However often it starts anew with what has been
found out, it asks no more than the questions on one path of the tree.
-/

namespace Conform

open Relation

/-- An evaluation as the questions that it asks. -/
inductive Inquiry (α : Type) where
  | done (a : Option α)
  | ask (number : Nat) (identifier : String) (next : Result Ty → Inquiry α)

namespace Inquiry

variable {α β : Type}

def eval (scope : Scope) : Inquiry α → Run α
  | done (some a) => .ok a
  | done none => .error .depth
  | ask number identifier next => do
    let ty ← scope.find number identifier
    (next ty).eval scope

def bind (f : α → Inquiry β) : Inquiry α → Inquiry β
  | done (some a) => f a
  | done none => done none
  | ask number identifier next => ask number identifier fun ty => (next ty).bind f

theorem eval_bind (scope : Scope) (f : α → Inquiry β) (q : Inquiry α) :
    (q.bind f).eval scope = q.eval scope >>= fun a => (f a).eval scope := by
  induction q with
  | done a =>
    cases a with
    | none => rfl
    | some a => rfl
  | ask number identifier next ih =>
    simp only [bind, eval, ih, bind_assoc]

/-- The entries that are asked for in a scope. -/
def asked (scope : Scope) : Inquiry α → List (Nat × String)
  | done _ => []
  | ask number identifier next =>
    match scope.find number identifier with
    | .ok ty => (number, identifier) :: (next ty).asked scope
    | .error _ => []

section

variable {iteration : Iteration} {found : List ((Nat × String) × Result Ty)} {number : Nat}
  {identifier : String}

theorem find_of_found {ty : Result Ty} (h : found.lookup (number, identifier) = some ty) :
    (World.partialScope iteration found).find number identifier = .ok ty := by
  simp only [World.partialScope, h]

theorem find_of_missing (h : found.lookup (number, identifier) = none) :
    (World.partialScope iteration found).find number identifier =
      .error (.lookup number identifier) := by
  simp only [World.partialScope, h]

end

/-- What has been found out is so in a scope. -/
def Knows (scope : Scope) (found : List ((Nat × String) × Result Ty)) : Prop :=
  ∀ k ty, found.lookup k = some ty → scope.find k.1 k.2 = .ok ty

section

variable {iteration : Iteration} {scope : Scope} {found : List ((Nat × String) × Result Ty)}

theorem Knows.cons (h : Knows scope found) {k : Nat × String} {ty : Result Ty}
    (hk : scope.find k.1 k.2 = .ok ty) : Knows scope ((k, ty) :: found) := by
  intro l t hl
  rw [List.lookup_cons] at hl
  split at hl
  next heq =>
    obtain rfl := eq_of_beq heq
    cases hl
    exact hk
  next => exact h l t hl

/-- With what has been found out, an evaluation comes to its end or to an entry that has not. -/
theorem eval_partialScope (htotal : scope.Total) (hfound : Knows scope found) (q : Inquiry α) :
    q.eval (World.partialScope iteration found) = q.eval scope ∨
      ∃ k ∈ q.asked scope, found.lookup k = none ∧
        q.eval (World.partialScope iteration found) = .error (.lookup k.1 k.2) := by
  induction q with
  | done a => exact Or.inl (by cases a with | none => rfl | some a => rfl)
  | ask number identifier next ih =>
    obtain ⟨ty, hty⟩ := htotal number identifier
    cases hlookup : found.lookup (number, identifier) with
    | none =>
      refine Or.inr ⟨(number, identifier), ?_, hlookup, ?_⟩
      · rw [asked, hty]
        exact List.mem_cons_self
      · rw [eval, find_of_missing hlookup]
        rfl
    | some ty' =>
      have hsame := hfound _ _ hlookup
      obtain rfl : ty' = ty := Except.ok.inj (hsame.symm.trans hty)
      have hnext : (ask number identifier next).eval (World.partialScope iteration found) =
          (next ty').eval (World.partialScope iteration found) := by
        rw [eval, find_of_found hlookup]
        rfl
      have hall : (ask number identifier next).eval scope = (next ty').eval scope := by
        rw [eval, hty]
        rfl
      rw [hnext, hall, asked, hty]
      refine (ih ty').imp_right fun ⟨k, hk, hrest⟩ => ?_
      exact ⟨k, List.mem_cons_of_mem _ hk, hrest⟩

end

end Inquiry

/-- An evaluation learns of a scope only by asking for entries. -/
def Inquires {α : Type} (run : Scope → Run α) : Prop :=
  ∃ q : Inquiry α, ∀ scope, run scope = q.eval scope

namespace Inquires

variable {α β : Type}

theorem pure (a : α) : Inquires fun _ => (.ok a : Run α) :=
  ⟨.done (some a), fun _ => rfl⟩

theorem depth : Inquires fun _ => (.error .depth : Run α) :=
  ⟨.done none, fun _ => rfl⟩

theorem find (number : Nat) (identifier : String) :
    Inquires fun scope => scope.find number identifier := by
  refine ⟨.ask number identifier fun ty => .done (some ty), fun scope => ?_⟩
  rw [Inquiry.eval]
  exact (bind_pure (scope.find number identifier)).symm

theorem bind {run : Scope → Run α} {f : Scope → α → Run β} (h : Inquires run)
    (hf : ∀ a, Inquires fun scope => f scope a) : Inquires fun scope => run scope >>= f scope := by
  obtain ⟨q, hq⟩ := h
  choose g hg using hf
  refine ⟨q.bind g, fun scope => ?_⟩
  rw [Inquiry.eval_bind, ← hq]
  exact bind_congr fun a => hg a scope

theorem follow (fuel : Nat) (chain : List Reference) (ty : Ty) :
    Inquires fun scope => Reference.follow scope fuel chain ty := by
  induction fuel generalizing chain ty with
  | zero =>
    cases ty with
    | reference r => exact depth
    | _ => exact pure _
  | succ fuel ih =>
    cases ty with
    | reference next =>
      simp only [Reference.follow]
      split
      next => exact pure _
      next =>
        refine (find next.registry next.identifier).bind fun found => ?_
        cases found with
        | error e => exact pure _
        | ok ty => exact ih _ ty
    | _ => exact pure _

theorem primitive (fuel : Nat) (ty : Ty) : Inquires fun scope => ty.primitive scope fuel := by
  induction fuel generalizing ty with
  | zero => exact depth
  | succ fuel ih =>
    cases ty with
    | nominal _ _ | array _ _ | map _ _ _ | schema _ => exact pure _
    | constrained inner _ _ | converted inner _ | defaulted inner _ | enum inner _ | safe inner
    | lax inner | maybe inner => exact ih inner
    | sum left right _ =>
      simp only [Ty.primitive]
      exact (ih left).bind fun l => (ih right).bind fun r => pure _
    | reference r =>
      simp only [Ty.primitive]
      refine (follow fuel [] (.reference r)).bind fun found => ?_
      cases found with
      | error e => exact pure _
      | ok ty => exact ih ty

theorem info (fuel : Nat) (ty : Ty) : Inquires fun scope => ty.info scope fuel := by
  induction ty with
  | nominal _ _ | array _ _ _ | map _ _ _ _ _ | schema _ _ | reference _ => exact pure _
  | constrained _ _ _ ih | converted _ _ ih | defaulted _ _ ih | enum _ _ ih | safe _ ih
  | lax _ ih | maybe _ ih => exact ih
  | sum left right i _ ihr =>
    simp only [Ty.info]
    refine (primitive fuel left).bind fun p => ?_
    split
    next => exact ihr
    next => exact pure _

end Inquires

namespace World

variable {α : Type} {run : Scope → Run α}

theorem answer_lookup {w : World} {found : List ((Nat × String) × Result Ty)} {k : Nat × String}
    (h : run (partialScope w.iteration found) = .error (.lookup k.1 k.2)) (lookups : Nat) :
    answer run (lookups + 1) found w =
      answer run lookups ((k, (w.get k.1 k.2).1) :: found) (w.get k.1 k.2).2 := by
  rw [answer, h]

/-- Looking entries up for an answer leaves all of them as they are. -/
theorem scope_answer (lookups : Nat) (found : List ((Nat × String) × Result Ty)) (w : World) :
    (answer run lookups found w).2.scope = w.scope := by
  induction lookups generalizing found w with
  | zero => rfl
  | succ lookups ih =>
    rw [answer]
    split
    next => rfl
    next => rfl
    next number identifier _ => exact (ih _ _).trans (w.scope_get number identifier)

/-- The answer depends on nothing but what the entries are. -/
theorem answer_congr {w w' : World} (h : w.scope = w'.scope) (lookups : Nat)
    (found : List ((Nat × String) × Result Ty)) :
    (answer run lookups found w).1 = (answer run lookups found w').1 := by
  induction lookups generalizing found w w' with
  | zero => rfl
  | succ lookups ih =>
    have hiteration : w.iteration = w'.iteration := congrArg Scope.iteration h
    rw [answer, answer, hiteration]
    split
    next => rfl
    next => rfl
    next number identifier _ =>
      have hscope := (w.scope_get number identifier).trans
        (h.trans (w'.scope_get number identifier).symm)
      have hfind : w.scope.find number identifier = w'.scope.find number identifier := by rw [h]
      have hty : (w.get number identifier).1 = (w'.get number identifier).1 := Except.ok.inj hfind
      dsimp only
      rw [hty]
      exact ih hscope _

section

variable {w : World} {found : List ((Nat × String) × Result Ty)}

/-- An answer is what the evaluation gives where all entries can be seen. -/
theorem run_of_answer (hrun : Inquires run) (hfound : Inquiry.Knows w.scope found)
    {lookups : Nat} {a : α} (h : (answer run lookups found w).1 = some a) :
    run w.scope = .ok a := by
  obtain ⟨q, hq⟩ := hrun
  induction lookups generalizing found w with
  | zero => cases h
  | succ lookups ih =>
    rw [answer] at h
    split at h
    next b hb =>
      obtain rfl := Option.some.inj h
      rw [hq] at hb ⊢
      rcases q.eval_partialScope w.total_scope hfound with hsame | ⟨k, -, -, hk⟩
      · rw [← hsame, hb]
      · cases hb.symm.trans hk
    next => cases h
    next number identifier _ =>
      have hscope := w.scope_get number identifier
      have hknows : Inquiry.Knows (w.get number identifier).2.scope
          (((number, identifier), (w.get number identifier).1) :: found) := by
        rw [hscope]
        exact hfound.cons rfl
      rw [← hscope]
      exact ih hknows h

/-- An evaluation with an end is answered when there are more lookups than entries left to ask for.
-/
theorem answer_of_run {q : Inquiry α} (hq : ∀ scope, run scope = q.eval scope)
    (hfound : Inquiry.Knows w.scope found) {a : α} (h : run w.scope = .ok a)
    {left : List (Nat × String)}
    (hleft : ∀ k ∈ q.asked w.scope, found.lookup k = none → k ∈ left) {lookups : Nat}
    (hmore : left.length < lookups) : (answer run lookups found w).1 = some a := by
  induction lookups generalizing found w left with
  | zero => omega
  | succ lookups ih =>
    rcases q.eval_partialScope w.total_scope hfound with hsame | ⟨k, hk, hmissing, hstop⟩
    · have hend : run (partialScope w.iteration found) = .ok a := by rw [hq, hsame, ← hq, h]
      rw [answer, hend]
    · rw [answer_lookup ((hq _).trans hstop)]
      have hscope := w.scope_get k.1 k.2
      have hmem := hleft k hk hmissing
      have hlength := List.length_erase_of_mem hmem
      have hpos := List.length_pos_of_mem hmem
      have hknows : Inquiry.Knows (w.get k.1 k.2).2.scope ((k, (w.get k.1 k.2).1) :: found) := by
        rw [hscope]
        exact hfound.cons rfl
      have hrest : ∀ l ∈ q.asked (w.get k.1 k.2).2.scope,
          ((k, (w.get k.1 k.2).1) :: found).lookup l = none → l ∈ left.erase k := by
        rw [hscope]
        intro l hl hnone
        rw [List.lookup_cons] at hnone
        split at hnone
        next => cases hnone
        next hne =>
          have hlk : l ≠ k := fun heq => by simp [heq] at hne
          exact (List.mem_erase_of_ne hlk).mpr (hleft l hl hnone)
      exact ih hknows (hscope ▸ h) hrest (by omega)

end

/-- An evaluation that looks entries up has an answer, given enough lookups, exactly if it has one
where all entries can be seen. -/
theorem answers_iff (w : World) (hrun : Inquires run) :
    (∃ n, ∀ lookups ≥ n, ((answer run lookups [] w).1).isSome = true) ↔
      ∃ a, run w.scope = .ok a := by
  have hknows : Inquiry.Knows w.scope [] := fun _ _ h => by cases h
  constructor
  · rintro ⟨n, hn⟩
    obtain ⟨a, ha⟩ := Option.isSome_iff_exists.mp (hn n (Nat.le_refl n))
    exact ⟨a, run_of_answer hrun hknows ha⟩
  · rintro ⟨a, ha⟩
    obtain ⟨q, hq⟩ := hrun
    refine ⟨(q.asked w.scope).length + 1, fun lookups hmore => ?_⟩
    rw [answer_of_run hq hknows ha (fun k hk _ => hk) (by omega)]
    rfl

/-- With enough lookups, the answer is what the evaluation gives where all entries can be seen. -/
theorem answered_iff (w : World) (hrun : Inquires run) {a : α} :
    (∃ lookups, (answer run lookups [] w).1 = some a) ↔ run w.scope = .ok a := by
  have hknows : Inquiry.Knows w.scope [] := fun _ _ h => by cases h
  constructor
  · rintro ⟨lookups, h⟩
    exact run_of_answer hrun hknows h
  · intro h
    obtain ⟨q, hq⟩ := hrun
    exact ⟨_, answer_of_run hq hknows h (fun k hk _ => hk) (Nat.lt_succ_self _)⟩

end World

end Conform
