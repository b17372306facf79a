import Conform.Proofs.Ast.Induction
import Conform.Proofs.Run
import Conform.World

namespace Conform

/-- A computation with effects has this result, whatever the state is. -/
def Answers {σ α : Type} (x : ExceptT Error (StateM σ) α) (r : Result α) : Prop :=
  ∀ w, (x.run w).1 = r

namespace Answers

variable {σ α β : Type} {x : ExceptT Error (StateM σ) α} {r : Result α}

theorem pure (a : α) : Answers (σ := σ) (Pure.pure a) (Pure.pure a) :=
  fun _ => rfl

theorem throw (e : Error) : Answers (σ := σ) (MonadExcept.throw e) (.error e : Result α) :=
  fun _ => rfl

theorem ofExcept (r : Result α) :
    Answers (σ := σ) (MonadExcept.ofExcept r) (MonadExcept.ofExcept r) := by
  cases r with
  | error e => exact throw e
  | ok a => exact pure a

theorem bind {f : α → ExceptT Error (StateM σ) β} {g : α → Result β} (hx : Answers x r)
    (hf : ∀ a, Answers (f a) (g a)) : Answers (x >>= f) (r >>= g) := by
  intro w
  rw [run_bind_fst, hx w]
  cases r with
  | error e => rfl
  | ok a => exact hf a _

end Answers

namespace Ast

variable {σ : Type} {declare : Ty → ExceptT Error (StateM σ) Unit} {table : FuncTable}
  {r : Registry}

theorem compileKeysWith_answers {keys : List (Key Ast)}
    (hd : ∀ ty, Answers (declare ty) (.ok ()))
    (h : ∀ k ∈ keys, Answers (k.type.compileWith declare table r) (k.type.compile table r)) :
    Answers (compileKeysWith declare table r keys)
      (compileKeysWith (m := Except Error) (fun _ => .ok ()) table r keys) := by
  induction keys with
  | nil => exact .pure []
  | cons k ks ih =>
    obtain ⟨hk, hks⟩ := List.forall_mem_cons.mp h
    exact hk.bind fun type => (hd type).bind fun _ => (ih hks).bind fun keys => .pure _

/-- What is done about the types of keys does not change what a written type is compiled to. -/
theorem compileWith_answers (hd : ∀ ty, Answers (declare ty) (.ok ())) (a : Ast) :
    Answers (a.compileWith declare table r) (a.compile table r) := by
  unfold compile
  induction a with
  | nominal p info => exact .pure _
  | any info => exact .pure _
  | constrained type rule ih => exact (Answers.ofExcept _).bind fun _ => ih.bind fun _ => .pure _
  | converted type handles ih =>
    unfold compileWith
    split
    next => exact .throw _
    next => exact (Answers.ofExcept _).bind fun _ => ih.bind fun _ => .pure _
  | sum left right info ihl ihr => exact ihl.bind fun _ => ihr.bind fun _ => .pure _
  | defaulted type value ih =>
    exact (Answers.ofExcept _).bind fun _ => ih.bind fun _ => .pure _
  | enum type values ih =>
    unfold compileWith
    split
    next => exact .throw _
    next => exact ih.bind fun _ => .pure _
  | array member info ih => exact ih.bind fun _ => .pure _
  | map key value info ihk ihv => exact ihk.bind fun _ => ihv.bind fun _ => .pure _
  | schema s ih =>
    exact (compileKeysWith_answers hd ih).bind fun _ =>
      (Answers.ofExcept _).bind fun _ => .pure _
  | safe type ih => exact ih.bind fun _ => .pure _
  | lax type ih => exact ih.bind fun _ => .pure _
  | maybe type ih => exact ih.bind fun _ => .pure _
  | named identifier info => exact .pure _

end Ast

/-- A registry compiles a written type to the same type whatever it has kept, also while it looks
up what the keys of schemas refer to. -/
theorem World.compile_fst (w : World) (table : FuncTable) (r : Registry) (a : Ast)
    (depth lookups : Nat) : (w.compile table r a depth lookups).1 = a.compile table r :=
  Ast.compileWith_answers (fun _ _ => rfl) a (w, true)

end Conform
