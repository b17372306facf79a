import Conform.Proofs.Ast.Compiled

/-!
What a written type has to be like to be compiled. Each node is checked for itself, also where what
it is compiled to is dropped later on: rules below a lax type, keys that are declared again.
-/

namespace Conform

namespace Ast

/-- What a node has to be like: its rule is in the vocabulary, its functions are in the table, and
neither its conversions nor its values are missing. -/
def AcceptableNode (table : FuncTable) (set : PredicateSet) : Ast → Prop
  | constrained _ rule => set.Accepts rule
  | converted _ handles => handles ≠ [] ∧ ∀ handle ∈ handles, table.contains handle = true
  | defaulted _ value => ∀ handle, value = .callable handle → table.contains handle = true
  | enum _ values => values ≠ []
  | schema s => ∀ handle, s.transform = .custom handle → table.contains handle = true
  | _ => True

/-- All nodes are acceptable, at every depth. -/
abbrev Acceptable (table : FuncTable) (set : PredicateSet) (a : Ast) : Prop :=
  a.Everywhere (AcceptableNode table set)

variable {table : FuncTable} {r : Registry}

theorem acceptable_compile {a : Ast} {t : Ty} (h : a.compile table r = .ok t) :
    a.Acceptable table r.predicates := by
  induction a, t, h using compile_induction with
  | nominal | any | named => exact trivial
  | constrained _ _ _ _ _ hrule ih => exact ⟨hrule, ih⟩
  | converted type functions _ _ _ hne hfind ih =>
    refine ⟨⟨by simpa using hne, fun handle hmem => ?_⟩, ih⟩
    obtain ⟨f, hf, rfl⟩ := List.mem_map.mp hmem
    exact FuncTable.contains_of_find? (hfind f hf)
  | defaulted type value _ _ _ hfind ih =>
    refine ⟨fun handle hvalue => ?_, ih⟩
    cases value with
    | literal v => cases hvalue
    | callable f =>
      cases hvalue
      exact FuncTable.contains_of_find? (hfind f rfl)
  | enum _ _ _ _ _ hne ih => exact ⟨hne, ih⟩
  | sum _ _ _ _ _ _ _ _ ihl ihr | map _ _ _ _ _ _ _ _ ihl ihr => exact ⟨trivial, ihl, ihr⟩
  | schema s types transform _ htypes hfind hwritten =>
    refine ⟨fun handle hcustom => ?_, writtenEverywhere_iff.mpr fun k hk => ?_⟩
    · rw [← hwritten] at hcustom
      cases transform with
      | custom f =>
        cases hcustom
        exact FuncTable.contains_of_find? (hfind f rfl)
      | _ => cases hcustom
    · obtain ⟨l, -, ⟨-, ih⟩, -⟩ := exists_mem_of_forall₂ htypes hk
      exact ih
  | array _ _ _ _ _ ih | safe _ _ _ _ ih | lax _ _ _ _ ih | maybe _ _ _ _ ih =>
    exact ⟨trivial, ih⟩

theorem exists_compileFallback {value : Fallback String}
    (h : ∀ handle, value = .callable handle → table.contains handle = true) :
    ∃ compiled, compileFallback table value = .ok compiled := by
  cases value with
  | literal v => exact ⟨.literal v, rfl⟩
  | callable handle =>
    obtain ⟨f, hf⟩ := FuncTable.contains_iff.mp (h handle rfl)
    exact ⟨.callable f, by rw [compileFallback, hf, ok_bind]; rfl⟩

theorem exists_compileTransform {transform : KeyTransform String}
    (h : ∀ handle, transform = .custom handle → table.contains handle = true) :
    ∃ compiled, compileTransform table transform = .ok compiled := by
  cases transform with
  | custom handle =>
    obtain ⟨f, hf⟩ := FuncTable.contains_iff.mp (h handle rfl)
    exact ⟨.custom f, by rw [compileTransform, hf, ok_bind]; rfl⟩
  | _ => exact ⟨_, rfl⟩

theorem exists_compileKeys {keys : List (Key Ast)}
    (h : ∀ k ∈ keys, ∃ t, k.type.compile table r = .ok t) :
    ∃ types, compileKeysWith (m := Except Error) (fun _ => .ok ()) table r keys = .ok types := by
  induction keys with
  | nil => exact ⟨[], rfl⟩
  | cons k ks ih =>
    obtain ⟨hk, hks⟩ := List.forall_mem_cons.mp h
    obtain ⟨t, ht⟩ := hk
    obtain ⟨types, htypes⟩ := ih hks
    unfold compile at ht
    refine ⟨⟨k.name, t, k.required⟩ :: types, ?_⟩
    simp only [compileKeysWith, ht, htypes, ok_bind]
    rfl

theorem exists_compile {a : Ast} (h : a.Acceptable table r.predicates) :
    ∃ t, a.compile table r = .ok t := by
  unfold compile
  induction a with
  | nominal p info => exact ⟨_, rfl⟩
  | any info => exact ⟨_, rfl⟩
  | named identifier info => exact ⟨_, rfl⟩
  | constrained type rule ih =>
    obtain ⟨t, ht⟩ := ih h.2
    have hrule := checkRule_eq_ok h.1
    refine ⟨.constrained t rule r.predicates, ?_⟩
    simp only [compileWith, ofExcept_result, hrule, ht, ok_bind]
    rfl
  | converted type handles ih =>
    obtain ⟨⟨hne, hcontains⟩, htype⟩ := h
    obtain ⟨t, ht⟩ := ih htype
    obtain ⟨functions, hfunctions⟩ := FuncTable.exists_mapM_get hcontains
    have hempty : handles.isEmpty = false := by simpa using hne
    refine ⟨.converted t functions, ?_⟩
    simp only [compileWith, ofExcept_result, hempty, hfunctions, ht, ok_bind]
    rfl
  | sum left right info ihl ihr =>
    obtain ⟨t, ht⟩ := ihl h.2.1
    obtain ⟨u, hu⟩ := ihr h.2.2
    refine ⟨.sum t u info, ?_⟩
    simp only [compileWith, ht, hu, ok_bind]
    rfl
  | defaulted type value ih =>
    obtain ⟨t, ht⟩ := ih h.2
    obtain ⟨compiled, hcompiled⟩ := exists_compileFallback h.1
    refine ⟨.defaulted t compiled, ?_⟩
    simp only [compileWith, ofExcept_result, hcompiled, ht, ok_bind]
    rfl
  | enum type values ih =>
    obtain ⟨t, ht⟩ := ih h.2
    have hempty : values.isEmpty = false := List.isEmpty_eq_false_iff.mpr h.1
    refine ⟨.enum t values, ?_⟩
    simp only [compileWith, hempty, ht, ok_bind]
    rfl
  | array member info ih =>
    obtain ⟨t, ht⟩ := ih h.2
    exact ⟨.array t info, by simp only [compileWith, ht, ok_bind]; rfl⟩
  | map key value info ihk ihv =>
    obtain ⟨t, ht⟩ := ihk h.2.1
    obtain ⟨u, hu⟩ := ihv h.2.2
    refine ⟨.map t u info, ?_⟩
    simp only [compileWith, ht, hu, ok_bind]
    rfl
  | schema s ih =>
    obtain ⟨htransform, hkeys⟩ := h
    obtain ⟨types, htypes⟩ := exists_compileKeys fun k hk =>
      ih k hk (writtenEverywhere_iff.mp hkeys k hk)
    obtain ⟨transform, htransform⟩ := exists_compileTransform htransform
    refine ⟨.schema { (Schema.ofKeys types : Schema Ty Func) with
      strict := s.strict, alwaysDefaults := s.alwaysDefaults, transform, info := s.info }, ?_⟩
    simp only [compileWith, ofExcept_result, htypes, htransform, ok_bind]
    rfl
  | safe type ih =>
    obtain ⟨t, ht⟩ := ih h.2
    exact ⟨.safe t, by simp only [compileWith, ht, ok_bind]; rfl⟩
  | lax type ih =>
    obtain ⟨t, ht⟩ := ih h.2
    exact ⟨.lax t.strip, by simp only [compileWith, ht, ok_bind]; rfl⟩
  | maybe type ih =>
    obtain ⟨t, ht⟩ := ih h.2
    exact ⟨.maybe t, by simp only [compileWith, ht, ok_bind]; rfl⟩

end Ast

end Conform
