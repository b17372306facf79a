import Conform.Proofs.Ast.Keyed

/-!
Compiling brings written types into a normal form, which writing down keeps: classes that are `any`
are spelled as such, nothing is left to remove below a lax type, and a schema has each name once.
-/

namespace Conform

/-- What has no constraints of its own to remove. -/
def Ast.LooseNode : Ast → Prop
  | .constrained _ _ | .enum _ _ | .lax _ => False
  | _ => True

/-- What compiling leaves as it is. -/
def Ast.NormalNode : Ast → Prop
  | .nominal p _ => p ≠ .any
  | .lax type => type.Everywhere LooseNode
  | .schema s => Schema.NamesDiffer s.keys
  | _ => True

/-- There is no nominal of class `any`, no constraint, enum or lax type below a lax one, and no
schema with two keys of one name. -/
abbrev Ast.Normal (a : Ast) : Prop :=
  a.Everywhere NormalNode

section

variable {table : FuncTable} {r : Registry}

/-- Removing constraints makes no type larger. -/
theorem Ty.sizeOf_strip_le (ty : Ty) : sizeOf ty.strip ≤ sizeOf ty := by
  induction ty with
  | schema s ih =>
    obtain ⟨keys, _, _, _, _⟩ := s
    have hkeys : sizeOf (stripKeys keys) ≤ sizeOf keys := by
      induction keys with
      | nil => exact Nat.le_refl _
      | cons k ks ihs =>
        obtain ⟨hk, hks⟩ := List.forall_mem_cons.mp ih
        have hrest := ihs hks
        obtain ⟨name, type, required⟩ := k
        simp only [stripKeys, List.cons.sizeOf_spec, Key.mk.sizeOf_spec] at hk hrest ⊢
        omega
    simpa [Ty.strip] using hkeys
  | _ =>
    simp [Ty.strip] at *
    try omega

theorem Ty.Portable.strip {ty : Ty} (h : ty.Portable table r) : ty.strip.Portable table r := by
  induction ty with
  | schema s ih =>
    obtain ⟨htransform, hkeys⟩ := h
    rw [keysEverywhere_iff] at hkeys
    rw [Ty.strip]
    refine ⟨htransform, keysEverywhere_iff.mpr ?_⟩
    simp only [stripKeys_eq_map, List.forall_mem_map]
    exact fun k hk => ih k hk (hkeys k hk)
  | _ => simp_all [Everywhere, PortableNode, Ty.strip]

namespace Ast

/-- What a written type is compiled to can be written down: all that it refers to is found again. -/
theorem portable_compile {a : Ast} {t : Ty} (h : a.compile table r = .ok t) :
    t.Portable table r := by
  induction a, t, h using compile_induction with
  | nominal | any => exact trivial
  | named => exact rfl
  | constrained _ _ _ _ _ hrule ih => exact ⟨⟨rfl, hrule⟩, ih⟩
  | converted _ _ _ _ _ hne hfind ih => exact ⟨⟨hne, hfind⟩, ih⟩
  | defaulted _ _ _ _ _ hfind ih => exact ⟨hfind, ih⟩
  | enum _ _ _ _ _ hne ih => exact ⟨hne, ih⟩
  | sum _ _ _ _ _ _ _ _ ihl ihr | map _ _ _ _ _ _ _ _ ihl ihr => exact ⟨trivial, ihl, ihr⟩
  | schema s types transform _ htypes hfind =>
    refine ⟨hfind, keysEverywhere_iff.mpr fun l hl => ?_⟩
    have hl : l ∈ types := (Schema.mem_foldl_putKey hl).resolve_left List.not_mem_nil
    obtain ⟨k, -, ⟨-, ih⟩, -⟩ := exists_mem_of_forall₂ htypes.flip hl
    exact ih
  | lax _ _ _ _ ih => exact ⟨trivial, ih.strip⟩
  | array _ _ _ _ _ ih | safe _ _ _ _ ih | maybe _ _ _ _ ih => exact ⟨trivial, ih⟩

/-- Where there are no constraints, none are removed. -/
theorem strip_compile {a : Ast} {t : Ty} (ha : a.Everywhere LooseNode)
    (h : a.compile table r = .ok t) : t.strip = t := by
  induction a, t, h using compile_induction with
  | nominal | any | named => rfl
  | constrained | enum | lax => exact ha.1.elim
  | sum _ _ _ _ _ _ _ _ ihl ihr | map _ _ _ _ _ _ _ _ ihl ihr =>
    rw [Ty.strip, ihl ha.2.1, ihr ha.2.2]
  | schema s types transform _ htypes =>
    obtain ⟨-, hkeys⟩ := ha
    rw [writtenEverywhere_iff] at hkeys
    have hstrip : ∀ l ∈ (Schema.ofKeys types : Schema Ty Func).keys, l.type.strip = l.type := by
      intro l hl
      have hl : l ∈ types := (Schema.mem_foldl_putKey hl).resolve_left List.not_mem_nil
      obtain ⟨k, hk, ⟨-, ih⟩, -⟩ := exists_mem_of_forall₂ htypes.flip hl
      exact ih (hkeys k hk)
    simp only [Ty.strip, stripKeys_eq_map]
    rw [List.map_congr_left fun l hl => by rw [hstrip l hl], List.map_id']
  | converted _ _ _ _ _ _ _ ih | defaulted _ _ _ _ _ _ ih | array _ _ _ _ _ ih
  | safe _ _ _ _ ih | maybe _ _ _ _ ih => rw [Ty.strip, ih ha.2]

theorem namesDiffer_of_names {keys : List (Key Ast)} {types : List (Key Ty)}
    (h : types.map Key.name = keys.map Key.name) (hkeys : Schema.NamesDiffer keys) :
    Schema.NamesDiffer types := by
  unfold Schema.NamesDiffer at *
  rw [← List.pairwise_map (R := fun m n => (m == n) = false)] at hkeys ⊢
  rwa [h]

theorem keysToAst_written {keys : List (Key Ast)} {types : List (Key Ty)}
    (h : List.Forall₂ (fun k l => l.type.toAst true = k.type ∧ l = ⟨k.name, l.type, k.required⟩)
      keys types) :
    keysToAst true types = keys ∧ types.map Key.name = keys.map Key.name := by
  induction h with
  | nil => exact ⟨rfl, rfl⟩
  | @cons k l ks ls hkey _ ih =>
    obtain ⟨htype, hl⟩ := hkey
    rw [keysToAst, ih.1, htype, List.map_cons, List.map_cons, ih.2, hl]
    exact ⟨rfl, rfl⟩

/-- A written type in normal form is what its compiled type is written as. -/
theorem toAst_compile {a : Ast} {t : Ty} (ha : a.Normal) (h : a.compile table r = .ok t) :
    t.toAst true = a := by
  induction a, t, h using compile_induction with
  | nominal p info =>
    have hp : p ≠ .any := ha
    rw [Ty.toAst, if_neg hp]
    rfl
  | any | named => rfl
  | schema s types transform _ htypes _ hwritten =>
    obtain ⟨hnames, hkeys⟩ := ha
    rw [writtenEverywhere_iff] at hkeys
    have hboth := (List.forall₂_and_left _ _).mpr ⟨hkeys, htypes⟩
    obtain ⟨htoAst, hsame⟩ :=
      keysToAst_written (hboth.imp fun k l hl => ⟨hl.2.1.2 hl.1, hl.2.2⟩)
    have hkept := Schema.ofKeys_keys (φ := Func) (namesDiffer_of_names hsame hnames)
    simp only [Ty.toAst, hkept, hwritten, htoAst, if_true]
  | sum _ _ _ _ _ _ _ _ ihl ihr | map _ _ _ _ _ _ _ _ ihl ihr =>
    simp only [Ty.toAst, ihl ha.2.1, ihr ha.2.2, if_true]
  | lax _ _ _ hu ih => rw [strip_compile ha.1 hu, Ty.toAst, ih ha.2]
  | constrained _ _ _ _ _ _ ih | converted _ _ _ _ _ _ _ ih | defaulted _ _ _ _ _ _ ih
  | enum _ _ _ _ _ _ ih | array _ _ _ _ _ ih | safe _ _ _ _ ih | maybe _ _ _ _ ih =>
    simp only [Ty.toAst, ih ha.2, if_true]

theorem loose_of_strip {t : Ty} (h : t.strip = t) : (t.toAst true).Everywhere LooseNode := by
  induction t with
  | nominal p info =>
    rw [Ty.toAst]
    split
    all_goals exact trivial
  | constrained inner _ _ | enum inner _ =>
    -- What is left of such a type is no larger than the type in it, so it is another one.
    have hle := inner.sizeOf_strip_le
    rw [Ty.strip] at h
    rw [h] at hle
    simp at hle
    omega
  | lax inner =>
    have hsize := congrArg sizeOf h
    simp [Ty.strip] at hsize
  | schema s ih =>
    have hkeys : stripKeys s.keys = s.keys := congrArg Schema.keys (Ty.schema.inj h)
    rw [stripKeys_eq_map] at hkeys
    have hid := List.map_inj_left.mp (hkeys.trans s.keys.map_id.symm)
    refine ⟨trivial, writtenEverywhere_iff.mpr ?_⟩
    rw [keysToAst_eq_map, List.forall_mem_map]
    exact fun k hk => ih k hk (congrArg Key.type (hid k hk))
  | _ => simp_all [Everywhere, LooseNode, Ty.strip, Ty.toAst]

/-- A type as the builders make it is written in normal form. -/
theorem normal_toAst {t : Ty} (h : t.Regular) : (t.toAst true).Normal := by
  induction t with
  | nominal p info =>
    rw [Ty.toAst]
    split
    next => exact trivial
    next hp => exact hp
  | lax inner ih => exact ⟨loose_of_strip h.1, ih h.2⟩
  | schema s ih =>
    obtain ⟨hnames, hkeys⟩ := Ty.regular_schema_iff.mp h
    rw [Ty.toAst, keysToAst_eq_map]
    refine ⟨(Schema.namesDiffer_map (Ty.toAst true)).mpr hnames, writtenEverywhere_iff.mpr ?_⟩
    rw [List.forall_mem_map]
    exact fun k hk => ih k hk (hkeys k hk)
  | sum _ _ _ ihl ihr | map _ _ _ ihl ihr => exact ⟨trivial, ihl h.2.1, ihr h.2.2⟩
  | reference _ => exact trivial
  | constrained _ _ _ ih | converted _ _ ih | defaulted _ _ ih | enum _ _ ih | array _ _ ih
  | safe _ ih | maybe _ ih => exact ⟨trivial, ih h.2⟩

end Ast

end

/-- Compiling a written type and writing the result down is a projection: in the world that
compiling leaves behind, what is written down is compiled again. What it leaves as it is are the
types in normal form. -/
theorem compile_projects {table : FuncTable} {r : Registry} {a : Ast} {t : Ty} {w later : World}
    {depth lookups : Nat} (h : w.compile table r a depth lookups = (.ok t, later, true)) :
    (∃ u, later.Compiles table r (t.toAst true) (.ok u) ∧ (u == t) = true ∧
      (u.toAst true == t.toAst true) = true) ∧
    (a.Normal ↔ t.toAst true = a) := by
  have hcompiles : w.Compiles table r a (.ok t) := ⟨depth, lookups, later, h⟩
  have hcompile := hcompiles.eq
  have hregular := Ast.regular_compile hcompile
  have hscope := w.scope_compile table r a depth lookups
  rw [h] at hscope
  have hstrip : ∀ u : Ty, u.Described later.scope → u.strip.Described later.scope :=
    fun _ => Ty.Described.strip
  have hdescribed := hcompiles.described
  rw [← hscope] at hdescribed
  have hkeyed := Ast.keyed_compile hstrip hcompile hdescribed
  have hagain := World.compiles_toAst true hregular (Ast.portable_compile hcompile) hkeyed
  rw [t.kept_true] at hagain
  have hself : (t == t) = true := by
    have hself := t.beq_mapInfo (f := fun info => info)
    rwa [Ty.mapInfo_eq_self (fun _ => rfl)] at hself
  refine ⟨⟨t, hagain, hself, BEq.rfl⟩, fun ha => Ast.toAst_compile ha hcompile, fun ha => ?_⟩
  rw [← ha]
  exact Ast.normal_toAst hregular

/-- A lax type with a constraint to remove, and a key that is declared over. -/
def looseDraft : Ast :=
  .lax (.schema
    { keys :=
        [⟨.symbol "state", .enum (.nominal .string {}) [.string "draft"], true⟩,
         ⟨.symbol "notes", .nominal .any {}, false⟩,
         ⟨.symbol "notes", .enum (.array (.any {}) {}) [.array []], false⟩] })

def compiledDraft : Ty :=
  .lax (.schema
    { keys :=
        [⟨.symbol "state", .nominal .string {}, true⟩,
         ⟨.symbol "notes", .array (.nominal .any {}) {}, false⟩] })

theorem compile_looseDraft_projects :
    World.compile {} articleTable articleRegistry looseDraft 9 9 = (.ok compiledDraft, {}, true) ∧
    (∃ u, World.Compiles {} articleTable articleRegistry (compiledDraft.toAst true) (.ok u) ∧
      (u == compiledDraft) = true ∧ (u.toAst true == compiledDraft.toAst true) = true) ∧
    (looseDraft.Normal ↔ compiledDraft.toAst true = looseDraft) := by
  have h : World.compile {} articleTable articleRegistry looseDraft 9 9 =
      (.ok compiledDraft, {}, true) := rfl
  exact ⟨h, compile_projects h⟩

end Conform
