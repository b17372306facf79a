import Conform.Proofs.Ast.RoundTrip

/-!
What is known of a written type that has been compiled: the rules in it have been accepted, its
functions have been found, and so have the types inside of it. What it has been compiled to can be
written down and compiled again.
-/

namespace Conform

/-- A rule of a written type, where there is one, has a property. -/
def Ast.RuleNode (P : Rule → Prop) : Ast → Prop
  | .constrained _ rule => P rule
  | _ => True

namespace Ast

variable {table : FuncTable} {r : Registry}

theorem accepts_of_checkRule {set : PredicateSet} {rule : Rule} {u : Unit}
    (h : checkRule set rule = .ok u) : set.Accepts rule := by
  unfold checkRule at h
  unfold PredicateSet.Accepts
  generalize rule.predicates = predicates at h ⊢
  induction predicates with
  | nil => simp
  | cons p ps ih =>
    simp only [List.forM, bind_eq_ok, pure_eq_ok] at h
    obtain ⟨_, ⟨compiled, hp, -⟩, hps⟩ := h
    exact List.forall_mem_cons.mpr ⟨⟨compiled, hp⟩, ih hps⟩

theorem find?_of_handles {handles : List String} {functions : List Func}
    (h : handles.mapM table.get = .ok functions) :
    (∀ f ∈ functions, table.find? f.handle = some f) ∧ functions.map Func.handle = handles := by
  rw [mapM_eq_ok] at h
  induction h with
  | nil => simp
  | @cons handle f _ _ hf _ ih =>
    obtain ⟨hfind, hhandle⟩ := FuncTable.find?_of_get hf
    exact ⟨List.forall_mem_cons.mpr ⟨hfind, ih.1⟩, by rw [List.map_cons, hhandle, ih.2]⟩

theorem find?_of_compileFallback {written : Fallback String} {value : Fallback Func}
    (h : compileFallback table written = .ok value) :
    (∀ f, value = .callable f → table.find? f.handle = some f) ∧
      value.map Func.handle = written := by
  cases written with
  | literal v =>
    obtain rfl := Except.ok.inj h
    exact ⟨fun f hf => (by cases hf), rfl⟩
  | callable handle =>
    obtain ⟨f, hf, h⟩ := bind_eq_ok.mp h
    obtain rfl := pure_eq_ok.mp h
    obtain ⟨hfind, rfl⟩ := FuncTable.find?_of_get hf
    exact ⟨fun g hg => (by cases hg; exact hfind), rfl⟩

theorem find?_of_compileTransform {written : KeyTransform String} {transform : KeyTransform Func}
    (h : compileTransform table written = .ok transform) :
    (∀ f, transform = .custom f → table.find? f.handle = some f) ∧
      transform.map Func.handle = written := by
  cases written with
  | custom handle =>
    obtain ⟨f, hf, h⟩ := bind_eq_ok.mp h
    obtain rfl := pure_eq_ok.mp h
    obtain ⟨hfind, rfl⟩ := FuncTable.find?_of_get hf
    exact ⟨fun g hg => (by cases hg; exact hfind), rfl⟩
  | _ =>
    obtain rfl := Except.ok.inj h
    exact ⟨fun f hf => (by cases hf), rfl⟩

section

variable {type : Ast} {t : Ty}

theorem compile_constrained {rule : Rule}
    (h : (constrained type rule).compile table r = .ok t) :
    r.predicates.Accepts rule ∧
      ∃ u, type.compile table r = .ok u ∧ t = .constrained u rule r.predicates := by
  obtain ⟨_, hrule, h⟩ := bind_eq_ok.mp h
  obtain ⟨u, hu, h⟩ := bind_eq_ok.mp h
  rw [ofExcept_result] at hrule
  exact ⟨accepts_of_checkRule hrule, u, hu, (pure_eq_ok.mp h).symm⟩

theorem compile_converted {handles : List String}
    (h : (converted type handles).compile table r = .ok t) :
    ∃ functions u, functions ≠ [] ∧ (∀ f ∈ functions, table.find? f.handle = some f) ∧
      functions.map Func.handle = handles ∧ type.compile table r = .ok u ∧
      t = .converted u functions := by
  unfold compile compileWith at h
  split at h
  next => cases h
  next hne =>
    obtain ⟨functions, hfun, h⟩ := bind_eq_ok.mp h
    obtain ⟨u, hu, h⟩ := bind_eq_ok.mp h
    rw [ofExcept_result] at hfun
    obtain ⟨hfind, hwritten⟩ := find?_of_handles hfun
    exact ⟨functions, u, by rintro rfl; exact hne (by rw [← hwritten]; rfl), hfind, hwritten, hu,
      (pure_eq_ok.mp h).symm⟩

theorem compile_defaulted {written : Fallback String}
    (h : (defaulted type written).compile table r = .ok t) :
    ∃ value u, (∀ f, value = .callable f → table.find? f.handle = some f) ∧
      value.map Func.handle = written ∧ type.compile table r = .ok u ∧ t = .defaulted u value := by
  obtain ⟨value, hvalue, h⟩ := bind_eq_ok.mp h
  obtain ⟨u, hu, h⟩ := bind_eq_ok.mp h
  rw [ofExcept_result] at hvalue
  obtain ⟨hfind, hwritten⟩ := find?_of_compileFallback hvalue
  exact ⟨value, u, hfind, hwritten, hu, (pure_eq_ok.mp h).symm⟩

theorem compile_enum {values : List Value} (h : (enum type values).compile table r = .ok t) :
    values ≠ [] ∧ ∃ u, type.compile table r = .ok u ∧ t = .enum u values := by
  unfold compile compileWith at h
  split at h
  next => cases h
  next hne =>
    obtain ⟨u, hu, h⟩ := bind_eq_ok.mp h
    exact ⟨by simpa using hne, u, hu, (pure_eq_ok.mp h).symm⟩

theorem compileKeys_eq_ok {keys : List (Key Ast)} {types : List (Key Ty)} :
    compileKeysWith (m := Except Error) (fun _ => .ok ()) table r keys = .ok types ↔
      List.Forall₂ (fun k l => k.type.compile table r = .ok l.type ∧
        l = ⟨k.name, l.type, k.required⟩) keys types := by
  induction keys generalizing types with
  | nil => simp [compileKeysWith, pure, Except.pure, eq_comm]
  | cons k ks ih =>
    simp only [compileKeysWith, bind_eq_ok, pure_eq_ok, ih, List.forall₂_cons_left_iff, compile]
    constructor
    · rintro ⟨u, hu, -, -, us, hus, rfl⟩
      exact ⟨_, us, ⟨hu, rfl⟩, hus, rfl⟩
    · rintro ⟨l, us, ⟨hu, hl⟩, hus, rfl⟩
      exact ⟨l.type, hu, (), trivial, us, hus, by rw [← hl]⟩

theorem compile_schema {s : Schema Ast String} (h : (schema s).compile table r = .ok t) :
    ∃ types transform, List.Forall₂ (fun k l => k.type.compile table r = .ok l.type ∧
        l = ⟨k.name, l.type, k.required⟩) s.keys types ∧
      (∀ f, transform = .custom f → table.find? f.handle = some f) ∧
      transform.map Func.handle = s.transform ∧
      t = .schema { (Schema.ofKeys types : Schema Ty Func) with
        strict := s.strict, alwaysDefaults := s.alwaysDefaults, transform, info := s.info } := by
  obtain ⟨types, htypes, h⟩ := bind_eq_ok.mp h
  obtain ⟨transform, htransform, h⟩ := bind_eq_ok.mp h
  rw [ofExcept_result] at htransform
  obtain ⟨hfind, hwritten⟩ := find?_of_compileTransform htransform
  exact ⟨types, transform, compileKeys_eq_ok.mp htypes, hfind, hwritten, (pure_eq_ok.mp h).symm⟩

/-- Induction on a written type that compiles, with what is known of it and of what it is compiled
to. -/
@[elab_as_elim]
theorem compile_induction {motive : (a : Ast) → (t : Ty) → a.compile table r = .ok t → Prop}
    (nominal : ∀ p info h, motive (nominal p info) (.nominal p info) h)
    (any : ∀ info h, motive (any info) (.nominal .any info) h)
    (constrained : ∀ type rule u h hu, r.predicates.Accepts rule → motive type u hu →
      motive (constrained type rule) (.constrained u rule r.predicates) h)
    (converted : ∀ type functions u h hu, functions ≠ [] →
      (∀ f ∈ functions, table.find? f.handle = some f) → motive type u hu →
      motive (converted type (functions.map Func.handle)) (.converted u functions) h)
    (sum : ∀ left right info u v h hu hv, motive left u hu → motive right v hv →
      motive (sum left right info) (.sum u v info) h)
    (defaulted : ∀ type (value : Fallback Func) u h hu,
      (∀ f, value = .callable f → table.find? f.handle = some f) → motive type u hu →
      motive (defaulted type (value.map Func.handle)) (.defaulted u value) h)
    (enum : ∀ type values u h hu, values ≠ [] → motive type u hu →
      motive (enum type values) (.enum u values) h)
    (array : ∀ member info u h hu, motive member u hu →
      motive (array member info) (.array u info) h)
    (map : ∀ key value info u v h hu hv, motive key u hu → motive value v hv →
      motive (map key value info) (.map u v info) h)
    (schema : ∀ (s : Schema Ast String) (types : List (Key Ty)) (transform : KeyTransform Func) h,
      List.Forall₂ (fun k l => (∃ hl, motive k.type l.type hl) ∧
        l = ⟨k.name, l.type, k.required⟩) s.keys types →
      (∀ f, transform = .custom f → table.find? f.handle = some f) →
      transform.map Func.handle = s.transform →
      motive (schema s) (.schema { (Schema.ofKeys types : Schema Ty Func) with
        strict := s.strict, alwaysDefaults := s.alwaysDefaults, transform, info := s.info }) h)
    (safe : ∀ type u h hu, motive type u hu → motive (safe type) (.safe u) h)
    (lax : ∀ type u h hu, motive type u hu → motive (lax type) (.lax u.strip) h)
    (maybe : ∀ type u h hu, motive type u hu → motive (maybe type) (.maybe u) h)
    (named : ∀ identifier info h,
      motive (named identifier info) (.reference ⟨r.number, identifier, info⟩) h)
    (a : Ast) (t : Ty) (h : a.compile table r = .ok t) : motive a t h := by
  induction a generalizing t with
  | nominal p info =>
    obtain rfl := pure_eq_ok.mp h
    exact nominal p info h
  | any info =>
    obtain rfl := pure_eq_ok.mp h
    exact any info h
  | constrained type rule ih =>
    obtain ⟨hrule, u, hu, rfl⟩ := compile_constrained h
    exact constrained type rule u h hu hrule (ih u hu)
  | converted type handles ih =>
    obtain ⟨functions, u, hne, hfind, rfl, hu, rfl⟩ := compile_converted h
    exact converted type functions u h hu hne hfind (ih u hu)
  | sum left right info ihl ihr =>
    obtain ⟨u, hu, hrest⟩ := bind_eq_ok.mp h
    obtain ⟨v, hv, hrest⟩ := bind_eq_ok.mp hrest
    obtain rfl := pure_eq_ok.mp hrest
    exact sum left right info u v h hu hv (ihl u hu) (ihr v hv)
  | defaulted type value ih =>
    obtain ⟨value, u, hfind, rfl, hu, rfl⟩ := compile_defaulted h
    exact defaulted type value u h hu hfind (ih u hu)
  | enum type values ih =>
    obtain ⟨hne, u, hu, rfl⟩ := compile_enum h
    exact enum type values u h hu hne (ih u hu)
  | array member info ih =>
    obtain ⟨u, hu, hrest⟩ := bind_eq_ok.mp h
    obtain rfl := pure_eq_ok.mp hrest
    exact array member info u h hu (ih u hu)
  | map key value info ihk ihv =>
    obtain ⟨u, hu, hrest⟩ := bind_eq_ok.mp h
    obtain ⟨v, hv, hrest⟩ := bind_eq_ok.mp hrest
    obtain rfl := pure_eq_ok.mp hrest
    exact map key value info u v h hu hv (ihk u hu) (ihv v hv)
  | schema s ih =>
    obtain ⟨types, transform, htypes, hfind, hwritten, rfl⟩ := compile_schema h
    refine schema s types transform h ?_ hfind hwritten
    refine List.forall₂_iff_get.mpr ⟨htypes.length_eq, fun i hi hj => ?_⟩
    obtain ⟨hcompile, hkey⟩ := htypes.get hi hj
    exact ⟨⟨hcompile, ih _ (List.get_mem s.keys ⟨i, hi⟩) _ hcompile⟩, hkey⟩
  | safe type ih =>
    obtain ⟨u, hu, hrest⟩ := bind_eq_ok.mp h
    obtain rfl := pure_eq_ok.mp hrest
    exact safe type u h hu (ih u hu)
  | lax type ih =>
    obtain ⟨u, hu, hrest⟩ := bind_eq_ok.mp h
    obtain rfl := pure_eq_ok.mp hrest
    exact lax type u h hu (ih u hu)
  | maybe type ih =>
    obtain ⟨u, hu, hrest⟩ := bind_eq_ok.mp h
    obtain rfl := pure_eq_ok.mp hrest
    exact maybe type u h hu (ih u hu)
  | named identifier info =>
    obtain rfl := pure_eq_ok.mp h
    exact named identifier info h

end

/-- What a written type is compiled to is as the builders would have made it. -/
theorem regular_compile {a : Ast} {t : Ty} (h : a.compile table r = .ok t) : t.Regular := by
  induction a, t, h using compile_induction with
  | nominal | any | named => exact trivial
  | constrained _ _ _ _ _ _ ih | converted _ _ _ _ _ _ _ ih | defaulted _ _ _ _ _ _ ih
  | enum _ _ _ _ _ _ ih | array _ _ _ _ _ ih | safe _ _ _ _ ih | maybe _ _ _ _ ih =>
    exact ⟨trivial, ih⟩
  | sum _ _ _ _ _ _ _ _ ihl ihr | map _ _ _ _ _ _ _ _ ihl ihr => exact ⟨trivial, ihl, ihr⟩
  | schema s types transform _ htypes =>
    have hkeys : ∀ l ∈ types, l.type.Regular := by
      intro l hl
      obtain ⟨k, -, ⟨-, ih⟩, -⟩ := exists_mem_of_forall₂ htypes.flip hl
      exact ih
    exact Ty.regular_schema_iff.mpr (Ty.regular_schema_iff.mp (Ty.regular_ofKeys types hkeys))
  | lax _ _ _ _ ih => exact ⟨ih.strip_strip, ih.strip⟩

end Ast

end Conform
