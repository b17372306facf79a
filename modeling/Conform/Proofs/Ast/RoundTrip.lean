import Conform.Proofs.Ast.Induction
import Conform.Proofs.Func
import Conform.Proofs.Rule.Standard
import Conform.Proofs.Ty.Info
import Conform.Proofs.Ty.Regular
import Conform.Proofs.World

namespace Conform

/-- What a written type refers to is found again: the predicates of rules in the vocabulary of a
registry, functions under their handles, entries in the registry. Chains of conversions and lists of
values are not empty. -/
def Ty.PortableNode (table : FuncTable) (r : Registry) : Ty → Prop
  | .constrained _ rule set => set = r.predicates ∧ r.predicates.Accepts rule
  | .converted _ functions => functions ≠ [] ∧ ∀ f ∈ functions, table.find? f.handle = some f
  | .defaulted _ value => ∀ f, value = .callable f → table.find? f.handle = some f
  | .enum _ values => values ≠ []
  | .schema s => ∀ f, s.transform = .custom f → table.find? f.handle = some f
  | .reference ref => ref.registry = r.number
  | _ => True

abbrev Ty.Portable (table : FuncTable) (r : Registry) (ty : Ty) : Prop :=
  ty.Everywhere (PortableNode table r)

/-- A type with its metadata or without any. -/
def Ty.kept (keepInfo : Bool) (ty : Ty) : Ty :=
  ty.mapInfo fun info => if keepInfo then info else {}

namespace Ast

variable {table : FuncTable} {r : Registry}

@[simp]
theorem ofExcept_result {α : Type} (x : Result α) : (MonadExcept.ofExcept x : Result α) = x := by
  cases x <;> rfl

theorem checkRule_eq_ok {set : PredicateSet} {rule : Rule} (h : set.Accepts rule) :
    checkRule set rule = .ok () := by
  unfold PredicateSet.Accepts at h
  unfold checkRule
  generalize rule.predicates = predicates at h ⊢
  induction predicates with
  | nil => rfl
  | cons p ps ih =>
    obtain ⟨⟨compiled, hp⟩, hps⟩ := List.forall_mem_cons.mp h
    simp only [List.forM, hp, ok_bind, pure_bind]
    exact ih hps

theorem get_handles {functions : List Func}
    (h : ∀ f ∈ functions, table.find? f.handle = some f) :
    (functions.map Func.handle).mapM table.get = .ok functions := by
  rw [mapM_eq_ok, List.forall₂_map_left_iff, List.forall₂_same]
  exact fun f hf => FuncTable.get_of_find? (h f hf)

theorem compileFallback_handle {value : Fallback Func}
    (h : ∀ f, value = .callable f → table.find? f.handle = some f) :
    compileFallback table (value.map Func.handle) = .ok value := by
  cases value with
  | literal v => rfl
  | callable f => simp [Fallback.map, compileFallback, FuncTable.get_of_find? (h f rfl)]

theorem compileTransform_handle {transform : KeyTransform Func}
    (h : ∀ f, transform = .custom f → table.find? f.handle = some f) :
    compileTransform table (transform.map Func.handle) = .ok transform := by
  cases transform with
  | custom f => simp [KeyTransform.map, compileTransform, FuncTable.get_of_find? (h f rfl)]
  | _ => rfl

theorem compileKeys_toAst (keepInfo : Bool) {keys : List (Key Ty)}
    (h : ∀ k ∈ keys, (k.type.toAst keepInfo).compile table r = .ok (k.type.kept keepInfo)) :
    compileKeysWith (m := Except Error) (fun _ => .ok ()) table r (keysToAst keepInfo keys) =
      .ok (keys.map fun k => { k with type := k.type.kept keepInfo }) := by
  induction keys with
  | nil => rfl
  | cons k ks ih =>
    obtain ⟨hk, hks⟩ := List.forall_mem_cons.mp h
    unfold compile at hk
    simp only [keysToAst, compileKeysWith, hk, ih hks, ok_bind]
    rfl

/-- A type that is written down is compiled to itself, with its metadata or without any. -/
theorem compile_toAst (keepInfo : Bool) {ty : Ty} (hr : ty.Regular) (hp : ty.Portable table r) :
    (ty.toAst keepInfo).compile table r = .ok (ty.kept keepInfo) := by
  unfold compile Ty.kept at *
  induction ty with
  | nominal p info =>
    rw [Ty.toAst]
    by_cases hany : p = .any
    · rw [if_pos hany, hany]
      rfl
    · rw [if_neg hany]
      rfl
  | constrained inner rule set ih =>
    obtain ⟨⟨rfl, hrule⟩, hin⟩ := hp
    simp only [Ty.toAst, compileWith, ofExcept_result, checkRule_eq_ok hrule, ih hr.2 hin, ok_bind]
    rfl
  | converted inner functions ih =>
    obtain ⟨⟨hne, hfun⟩, hin⟩ := hp
    have hempty : (functions.map Func.handle).isEmpty = false := by simpa using hne
    simp only [Ty.toAst, compileWith, hempty, ofExcept_result, get_handles hfun, ih hr.2 hin,
      ok_bind]
    rfl
  | sum left right info ihl ihr =>
    simp only [Ty.toAst, compileWith, ihl hr.2.1 hp.2.1, ihr hr.2.2 hp.2.2, ok_bind]
    rfl
  | defaulted inner value ih =>
    simp only [Ty.toAst, compileWith, ofExcept_result, compileFallback_handle hp.1, ih hr.2 hp.2,
      ok_bind]
    rfl
  | enum inner values ih =>
    have hne : values ≠ [] := hp.1
    have hempty : values.isEmpty = false := by simpa using hne
    simp only [Ty.toAst, compileWith, hempty, ih hr.2 hp.2, ok_bind]
    rfl
  | array member info ih =>
    simp only [Ty.toAst, compileWith, ih hr.2 hp.2, ok_bind]
    rfl
  | map key value info ihk ihv =>
    simp only [Ty.toAst, compileWith, ihk hr.2.1 hp.2.1, ihv hr.2.2 hp.2.2, ok_bind]
    rfl
  | schema s ih =>
    obtain ⟨hnames, hreg⟩ := Ty.regular_schema_iff.mp hr
    obtain ⟨htransform, hport⟩ := hp
    rw [keysEverywhere_iff] at hport
    have hkeys := compileKeys_toAst keepInfo fun k hk => ih k hk (hreg k hk) (hport k hk)
    have hkept := (Schema.namesDiffer_map (Ty.kept keepInfo)).mpr hnames
    simp only [Ty.toAst, compileWith, hkeys, ofExcept_result, compileTransform_handle htransform,
      ok_bind, Schema.ofKeys_keys hkept, Ty.mapInfo, mapInfoKeys_eq_map]
    rfl
  | safe inner ih =>
    simp only [Ty.toAst, compileWith, ih hr.2 hp.2, ok_bind]
    rfl
  | lax inner ih =>
    have hstrip : inner.strip = inner := hr.1
    simp only [Ty.toAst, compileWith, ih hr.2 hp.2, ok_bind, Ty.strip_mapInfo, hstrip]
    rfl
  | maybe inner ih =>
    simp only [Ty.toAst, compileWith, ih hr.2 hp.2, ok_bind]
    rfl
  | reference ref =>
    have hnumber : ref.registry = r.number := hp
    simp only [Ty.toAst, compileWith, Ty.mapInfo, hnumber]
    rfl

end Ast

theorem Ty.alike_kept (keepInfo : Bool) (ty : Ty) : (ty.kept keepInfo).Alike ty := by
  intro scope fuel input
  rw [kept, coerce_mapInfo, attempt_mapInfo, accepts_mapInfo]
  exact ⟨rfl, rfl, rfl⟩

theorem Ty.kept_true (ty : Ty) : ty.kept true = ty :=
  mapInfo_eq_self (fun _ => rfl) ty

/-- The functions known to the registry of articles. -/
def articleTable : FuncTable where
  functions := [⟨"slug", fun v => .ok v⟩]

def articleRegistry : Registry where
  number := 1

/-- A type that has most kinds of layers, and metadata in several places. -/
def article : Ty :=
  .schema
    { keys :=
        [⟨.symbol "slug", .converted (Ty.strict .string) articleTable.functions, true⟩,
         ⟨.symbol "state", .enum (.nominal .string {}) [.string "draft", .string "live"], true⟩,
         ⟨.symbol "author", .maybe (.reference { registry := 1, identifier := "user" }), false⟩,
         ⟨.symbol "tags", .lax (.array (.nominal .any (.ofList [("label", .nil)])) {}), false⟩]
      info := .ofList [("omittable", .bool true)] }

theorem regular_article : article.Regular := by
  rw [article, Ty.regular_schema_iff]
  constructor
  · simp [Schema.NamesDiffer]
  · simp [Ty.strict, Ty.Everywhere, Ty.RegularNode, Ty.strip]

theorem portable_article : article.Portable articleTable articleRegistry := by
  have hset : articleRegistry.predicates = Standard.predicates := rfl
  have hnumber : articleRegistry.number = 1 := rfl
  have hrule : Standard.predicates.Accepts (Ty.classRule .string) :=
    Standard.accepts_compile (show Standard.compile "type?" (.string "string") = .ok _ from rfl)
  have hslug : ∀ f ∈ articleTable.functions, articleTable.find? f.handle = some f := by
    intro f hf
    obtain rfl := List.mem_singleton.mp hf
    rfl
  have hne : articleTable.functions ≠ [] := List.cons_ne_nil _ _
  simpa [article, Ty.strict, Ty.Everywhere, keysEverywhere, Ty.PortableNode, hne, hset, hrule,
    hnumber] using hslug

end Conform
