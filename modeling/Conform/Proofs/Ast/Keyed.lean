import Conform.Proofs.Ast.Compiling

/-!
Types that are written down and compiled again. They come back as they were, provided that compiling
has an end, which is a matter of the types of their keys.
-/

namespace Conform

open Relation

/-- The types of the keys have a property, if there are keys. -/
def Ty.KeyedNode (P : Ty → Prop) : Ty → Prop
  | .schema s => ∀ k ∈ s.keys, P k.type
  | _ => True

/-- The types of all keys have a property, at every depth. -/
abbrev Ty.Keyed (P : Ty → Prop) (ty : Ty) : Prop :=
  ty.Everywhere (KeyedNode P)

section

variable {table : FuncTable} {r : Registry} {P Q : Ty → Prop} {ty : Ty}

namespace Ty

theorem keyed_schema_iff {s : Schema Ty Func} :
    (schema s).Keyed P ↔ ∀ k ∈ s.keys, P k.type ∧ k.type.Keyed P := by
  rw [Keyed, Everywhere, keysEverywhere_iff, KeyedNode]
  exact forall₂_and.symm

theorem Keyed.strip (hP : ∀ t, P t → P t.strip) (h : ty.Keyed P) : ty.strip.Keyed P := by
  induction ty with
  | nominal _ _ | reference _ => exact h
  | sum _ _ _ ihl ihr | map _ _ _ ihl ihr => exact ⟨trivial, ihl h.2.1, ihr h.2.2⟩
  | schema s ih =>
    rw [keyed_schema_iff] at h
    rw [Ty.strip, keyed_schema_iff]
    simp only [stripKeys_eq_map, List.forall_mem_map]
    exact fun k hk => ⟨hP _ (h k hk).1, ih k hk (h k hk).2⟩
  | lax _ _ => exact h.2
  | constrained _ _ _ ih | enum _ _ ih => exact ih h.2
  | converted _ _ ih | defaulted _ _ ih | array _ _ ih | safe _ ih | maybe _ ih =>
    exact ⟨trivial, ih h.2⟩

end Ty

namespace Ast

theorem keysToAst_eq_map (keepInfo : Bool) (keys : List (Key Ty)) :
    keysToAst keepInfo keys = keys.map fun k => ⟨k.name, k.type.toAst keepInfo, k.required⟩ := by
  induction keys with
  | nil => rfl
  | cons k ks ih => rw [keysToAst, ih, List.map_cons]

/-- The types that keys are compiled to when a type is compiled again are its own key types. -/
theorem keyTypes_toAst (keepInfo : Bool) (hr : ty.Regular) (hp : ty.Portable table r) :
    (ty.toAst keepInfo).KeyTypes P table r ↔ ty.Keyed fun t => P (t.kept keepInfo) := by
  induction ty with
  | nominal p info =>
    rw [Ty.toAst]
    split
    next => exact Iff.rfl
    next => exact Iff.rfl
  | reference _ => exact Iff.rfl
  | sum _ _ _ ihl ihr | map _ _ _ ihl ihr =>
    exact and_congr Iff.rfl (and_congr (ihl hr.2.1 hp.2.1) (ihr hr.2.2 hp.2.2))
  | schema s ih =>
    have hreg := (Ty.regular_schema_iff.mp hr).2
    have hport := keysEverywhere_iff.mp hp.2
    have hcompile := fun k hk => compile_toAst keepInfo (hreg k hk) (hport k hk)
    rw [Ty.toAst, Ty.keyed_schema_iff, KeyTypes, Everywhere, writtenEverywhere_iff, KeyTypesNode,
      keysToAst_eq_map, List.forall_mem_map, List.forall_mem_map, ← forall₂_and]
    refine forall₂_congr fun k hk => and_congr ?_ (ih k hk (hreg k hk) (hport k hk))
    simp [hcompile k hk]
  | constrained _ _ _ ih | converted _ _ ih | defaulted _ _ ih | enum _ _ ih | array _ _ ih
  | safe _ ih | lax _ ih | maybe _ ih => exact and_congr Iff.rfl (ih hr.2 hp.2)

/-- What is known of the types of keys while a type is compiled is known of the result, if it is
also known of types without constraints. -/
theorem keyed_compile (hP : ∀ t, P t → P t.strip) {a : Ast} {t : Ty}
    (h : a.compile table r = .ok t) (ha : a.KeyTypes P table r) : t.Keyed P := by
  induction a, t, h using compile_induction with
  | nominal | any | named => exact trivial
  | sum _ _ _ _ _ _ _ _ ihl ihr | map _ _ _ _ _ _ _ _ ihl ihr =>
    exact ⟨trivial, ihl ha.2.1, ihr ha.2.2⟩
  | schema s types transform _ htypes =>
    obtain ⟨hnode, hkeys⟩ := ha
    rw [writtenEverywhere_iff] at hkeys
    refine Ty.keyed_schema_iff.mpr fun l hl => ?_
    have hl : l ∈ types := (Schema.mem_foldl_putKey hl).resolve_left List.not_mem_nil
    obtain ⟨k, hk, ⟨hcompile, ih⟩, -⟩ := exists_mem_of_forall₂ htypes.flip hl
    exact ⟨hnode k hk l.type hcompile, ih (hkeys k hk)⟩
  | lax _ _ _ _ ih => exact ⟨trivial, (ih ha.2).strip hP⟩
  | constrained _ _ _ _ _ _ ih | converted _ _ _ _ _ _ _ ih | defaulted _ _ _ _ _ _ ih
  | enum _ _ _ _ _ _ ih | array _ _ _ _ _ ih | safe _ _ _ _ ih | maybe _ _ _ _ ih =>
    exact ⟨trivial, ih ha.2⟩

end Ast

end

namespace World

variable {w : World} {table : FuncTable} {r : Registry} {ty : Ty}

theorem keyTypes_iff_keyed (keepInfo : Bool) (hr : ty.Regular) (hp : ty.Portable table r) :
    (ty.toAst keepInfo).KeyTypes (Ty.Described w.scope) table r ↔
      ty.Keyed (Ty.Described w.scope) := by
  rw [Ast.keyTypes_toAst keepInfo hr hp]
  simp only [Ty.kept, Ty.described_mapInfo]

/-- A type is compiled again, where the metadata of the types of its keys can be told. -/
theorem compiles_toAst (keepInfo : Bool) (hr : ty.Regular) (hp : ty.Portable table r)
    (h : ty.Keyed (Ty.Described w.scope)) :
    w.Compiles table r (ty.toAst keepInfo) (.ok (ty.kept keepInfo)) := by
  rw [← Ast.compile_toAst keepInfo hr hp]
  exact compiles_of_described ((keyTypes_iff_keyed keepInfo hr hp).mpr h)

theorem keyed_of_compiles {res : Result Ty} (keepInfo : Bool) (hr : ty.Regular)
    (hp : ty.Portable table r) (h : w.Compiles table r (ty.toAst keepInfo) res) :
    ty.Keyed (Ty.Described w.scope) := by
  have hres := h.eq
  rw [Ast.compile_toAst keepInfo hr hp] at hres
  rw [← hres] at h
  exact (keyTypes_iff_keyed keepInfo hr hp).mp h.described

/-- References that lead in no cycle do not keep a type from being compiled again. -/
theorem keyed_of_settled (h : ∀ ref ∈ ty.references, w.Settled ref.entry) :
    ty.Keyed (Ty.Described w.scope) := by
  induction ty with
  | nominal _ _ | reference _ => trivial
  | sum _ _ _ ihl ihr | map _ _ _ ihl ihr =>
    obtain ⟨hl, hr⟩ := List.forall_mem_append.mp h
    exact ⟨trivial, ihl hl, ihr hr⟩
  | schema s ih =>
    refine Ty.keyed_schema_iff.mpr fun k hk => ?_
    have hkey : ∀ ref ∈ k.type.references, w.Settled ref.entry :=
      fun ref href => h ref (mem_keyReferences.mpr ⟨k, hk, href⟩)
    refine ⟨Ty.described_of_acc w.total_scope fun ref href => ?_, ih k hk hkey⟩
    exact (hkey ref (Ty.mem_references_of_bare href)).acc
  | constrained _ _ _ ih | converted _ _ ih | defaulted _ _ ih | enum _ _ ih | array _ _ ih
  | safe _ ih | lax _ ih | maybe _ ih => exact ⟨trivial, ih h⟩

end World

/-- A type survives being written down and compiled, provided that compiling has an end: with its
metadata it stays as it is; without them it is still equal and does the same, and has no metadata
anywhere. There is an end exactly if the metadata of the types of all keys can be told, thus in
particular if no reference leads in a cycle. -/
theorem compile_toAst_equal (table : FuncTable) (r : Registry) (ty : Ty) (hr : ty.Regular)
    (hp : ty.Portable table r) (w : World) :
    (ty.Keyed (Ty.Described w.scope) →
      (∃ t, w.Compiles table r (ty.toAst true) (.ok t) ∧ (t == ty) = true ∧
        (t.toAst true == ty.toAst true) = true ∧ t.Alike ty) ∧
      ∃ t, w.Compiles table r (ty.toAst false) (.ok t) ∧ (t == ty) = true ∧
        t.Alike ty ∧ t.Everywhere fun u => u.notes.isEmpty = true) ∧
    (¬ty.Keyed (Ty.Described w.scope) →
      ∀ keepInfo, ¬∃ res, w.Compiles table r (ty.toAst keepInfo) res) ∧
    ((∀ ref ∈ ty.references, w.Settled ref.entry) → ty.Keyed (Ty.Described w.scope)) := by
  refine ⟨fun hkeyed => ⟨?_, ?_⟩, fun hnot keepInfo => ?_, World.keyed_of_settled⟩
  · refine ⟨ty.kept true, World.compiles_toAst true hr hp hkeyed, ty.beq_mapInfo, ?_,
      ty.alike_kept true⟩
    rw [ty.kept_true]
    exact BEq.rfl
  · refine ⟨ty.kept false, World.compiles_toAst false hr hp hkeyed, ty.beq_mapInfo,
      ty.alike_kept false, ?_⟩
    exact ty.everywhere_notes_mapInfo (P := fun info => info.isEmpty = true) (fun _ => rfl) rfl
  · rintro ⟨res, h⟩
    exact hnot (World.keyed_of_compiles keepInfo hr hp h)

theorem compile_article_equal :
    article.Regular ∧ article.Portable articleTable articleRegistry ∧
    article.Keyed (Ty.Described (World.scope {})) ∧
    (∃ t, World.Compiles {} articleTable articleRegistry (article.toAst true) (.ok t) ∧
      (t == article) = true ∧ (t.toAst true == article.toAst true) = true ∧ t.Alike article) ∧
    ∃ t, World.Compiles {} articleTable articleRegistry (article.toAst false) (.ok t) ∧
      (t == article) = true ∧ t.Alike article ∧
        t.Everywhere fun u => u.notes.isEmpty = true := by
  have hkeyed : article.Keyed (Ty.Described (World.scope {})) := by
    refine World.keyed_of_settled fun ref href k _ cycle => ?_
    -- Nothing has been registered in this world, so no step leads anywhere.
    obtain ⟨k', ⟨ty, -, hty, -, -⟩, -⟩ := TransGen.head'_iff.mp cycle
    cases hty
  have hequal := compile_toAst_equal articleTable articleRegistry article regular_article
    portable_article {}
  exact ⟨regular_article, portable_article, hkeyed, hequal.1 hkeyed⟩

/-- A schema as it is built before there is an entry for what its key refers to. -/
def looseType : Ty :=
  .schema { keys := [⟨.string "k", .sum (.reference ⟨0, "a", {}⟩) (.nominal .any {}) {}, true⟩] }

/-- It is not compiled again once the entry has been found to be, perhaps, itself. -/
theorem compile_looseType_endless :
    ∃ r, maybeWorld.registry? 0 = some r ∧ looseType.Regular ∧ looseType.Portable {} r ∧
      ¬∃ res, maybeWorld.Compiles {} r (looseType.toAst true) res := by
  refine ⟨_, rfl, ?_⟩
  generalize hr : ({ number := 0, types := _ } : Registry) = r
  have hnumber : 0 = r.number := by rw [← hr]
  have hregular : looseType.Regular :=
    Ty.regular_schema_iff.mpr ⟨List.pairwise_singleton _ _, by simp [Ty.Everywhere, Ty.RegularNode]⟩
  have hportable : looseType.Portable {} r := by
    refine ⟨fun f hcustom => ?_, ⟨trivial, hnumber, trivial⟩, trivial⟩
    cases hcustom
  refine ⟨hregular, hportable, ?_⟩
  rintro ⟨res, h⟩
  have hkeyed := World.keyed_of_compiles true hregular hportable h
  exact World.not_described_looseKey (Ty.keyed_schema_iff.mp hkeyed _ List.mem_cons_self).1

end Conform
