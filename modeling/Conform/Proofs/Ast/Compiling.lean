import Conform.Proofs.Ast.Acceptable
import Conform.Proofs.Inquiry
import Conform.Proofs.Ty.Class
import Conform.Proofs.Ty.Cycle
import Mathlib.Order.Filter.AtTopBot.Basic
import Mathlib.Order.Filter.Finite

/-!
When compiling comes to an end. For the type of each key it is found out whether the key may be left
out; this asks what a sum in it is about, and so it may follow references.
-/

namespace Conform

open Relation Filter

/-- What a computation does to a world and to whether it still counts: the entries stay as they are,
and it counts in the end if it has counted so far and the condition holds; if it counts in the end
and has a result, the condition does hold. -/
structure Tells {α : Type} (scope : Scope) (x : ExceptT Error (StateM (World × Bool)) α)
    (P : Prop) : Prop where
  same : ∀ s : World × Bool, s.1.scope = scope → (x.run s).2.1.scope = scope
  ends : ∀ s : World × Bool, s.1.scope = scope → s.2 = true → P → (x.run s).2.2 = true
  counted : ∀ s : World × Bool, s.1.scope = scope → (x.run s).2.2 = true → s.2 = true
  holds : ∀ s : World × Bool, s.1.scope = scope → (x.run s).2.2 = true →
    ∀ a, (x.run s).1 = .ok a → P

namespace Tells

variable {α β : Type} {scope : Scope} {x : ExceptT Error (StateM (World × Bool)) α} {P Q : Prop}

theorem congr (h : Tells scope x P) (hPQ : P ↔ Q) : Tells scope x Q :=
  propext hPQ ▸ h

theorem pure (a : α) : Tells scope (Pure.pure a) True where
  same _ hs := hs
  ends _ _ h _ := h
  counted _ _ h := h
  holds _ _ _ _ _ := trivial

theorem throw (e : Error) (P : Prop) : Tells (α := α) scope (MonadExcept.throw e) P where
  same _ hs := hs
  ends _ _ h _ := h
  counted _ _ h := h
  holds _ _ _ _ h := by cases h

theorem ofExcept (res : Result α) : Tells scope (MonadExcept.ofExcept res) True := by
  cases res with
  | error e => exact throw e True
  | ok a => exact pure a

theorem bind {r : Result α} {f : α → ExceptT Error (StateM (World × Bool)) β}
    (hr : Answers x r) (hx : Tells scope x P) (hf : ∀ a, r = .ok a → Tells scope (f a) Q) :
    Tells scope (x >>= f) (P ∧ Q) := by
  have hstep : ∀ s : World × Bool, s.1.scope = scope →
      (∃ e, (x >>= f).run s = (.error e, (x.run s).2)) ∨
        ∃ a, (x.run s).1 = .ok a ∧ (x >>= f).run s = (f a).run (x.run s).2 ∧
          Tells scope (f a) Q := by
    intro s _
    have hs := hr s
    rcases hrun : x.run s with ⟨_ | a, s'⟩
    · exact Or.inl ⟨_, run_bind_of_error hrun f⟩
    · rw [hrun] at hs
      exact Or.inr ⟨a, rfl, run_bind_of_ok hrun f, hf a hs.symm⟩
  constructor
  · intro s hs
    rcases hstep s hs with ⟨e, h⟩ | ⟨a, -, h, hfa⟩
    · rw [h]
      exact hx.same s hs
    · rw [h]
      exact hfa.same _ (hx.same s hs)
  · intro s hs hcounts hPQ
    rcases hstep s hs with ⟨e, h⟩ | ⟨a, -, h, hfa⟩
    · rw [h]
      exact hx.ends s hs hcounts hPQ.1
    · rw [h]
      exact hfa.ends _ (hx.same s hs) (hx.ends s hs hcounts hPQ.1) hPQ.2
  · intro s hs hcounts
    rcases hstep s hs with ⟨e, h⟩ | ⟨a, -, h, hfa⟩
    · rw [h] at hcounts
      exact hx.counted s hs hcounts
    · rw [h] at hcounts
      exact hx.counted s hs (hfa.counted _ (hx.same s hs) hcounts)
  · intro s hs hcounts b hb
    rcases hstep s hs with ⟨e, h⟩ | ⟨a, ha, h, hfa⟩
    · rw [h] at hb
      cases hb
    · rw [h] at hcounts hb
      have hfirst := hfa.counted _ (hx.same s hs) hcounts
      exact ⟨hx.holds s hs hfirst a ha, hfa.holds _ (hx.same s hs) hcounts b hb⟩

end Tells

namespace Ast

/-- The types of all keys of a schema have a property. -/
def KeyTypesNode (P : Ty → Prop) (table : FuncTable) (r : Registry) : Ast → Prop
  | schema s => ∀ k ∈ s.keys, ∀ t, k.type.compile table r = .ok t → P t
  | _ => True

/-- The types of all keys have a property, at every depth. -/
abbrev KeyTypes (P : Ty → Prop) (table : FuncTable) (r : Registry) (a : Ast) : Prop :=
  a.Everywhere (KeyTypesNode P table r)

section

variable {declare : Ty → ExceptT Error (StateM (World × Bool)) Unit} {table : FuncTable}
  {r : Registry} {scope : Scope} {P : Ty → Prop}

theorem compileKeysWith_tells {keys : List (Key Ast)}
    (hd : ∀ ty, Answers (declare ty) (.ok ())) (ht : ∀ ty, Tells scope (declare ty) (P ty))
    (h : ∀ k ∈ keys, Tells scope (k.type.compileWith declare table r)
      (k.type.KeyTypes P table r)) :
    Tells scope (compileKeysWith declare table r keys)
      (∀ k ∈ keys, k.type.KeyTypes P table r ∧
        ∀ t, k.type.compile table r = .ok t → P t) := by
  induction keys with
  | nil => exact (Tells.pure _).congr (by simp)
  | cons k ks ih =>
    obtain ⟨hk, hks⟩ := List.forall_mem_cons.mp h
    have hanswers : Answers (compileKeysWith declare table r ks) _ :=
      compileKeysWith_answers hd fun l _ => compileWith_answers hd l.type
    have hrest : ∀ t, k.type.compile table r = .ok t →
        Tells scope (do
          declare t
          let keys ← compileKeysWith declare table r ks
          return ⟨k.name, t, k.required⟩ :: keys)
          ((∀ t, k.type.compile table r = .ok t → P t) ∧
            ∀ l ∈ ks, l.type.KeyTypes P table r ∧
              ∀ t, l.type.compile table r = .ok t → P t) := by
      intro t hcompile
      refine (Tells.bind (hd t) (ht t) fun _ _ =>
        Tells.bind hanswers (ih hks) fun _ _ => .pure _).congr ?_
      simp [hcompile]
    refine (Tells.bind (compileWith_answers hd k.type) hk hrest).congr ?_
    rw [List.forall_mem_cons, and_assoc]

/-- What is told while a written type is compiled, is told of the types of its keys. -/
theorem compileWith_tells (hd : ∀ ty, Answers (declare ty) (.ok ()))
    (ht : ∀ ty, Tells scope (declare ty) (P ty)) (a : Ast) :
    Tells scope (a.compileWith declare table r) (a.KeyTypes P table r) := by
  have answers : ∀ b : Ast, Answers (b.compileWith declare table r) (b.compile table r) :=
    compileWith_answers hd
  induction a with
  | nominal p info => exact .pure _
  | any info => exact .pure _
  | named identifier info => exact .pure _
  | constrained type rule ih =>
    refine (Tells.bind (.ofExcept _) (.ofExcept _) fun _ _ =>
      Tells.bind (answers type) ih fun _ _ => .pure _).congr ?_
    simp [Everywhere, KeyTypesNode]
  | converted type handles ih =>
    unfold compileWith
    split
    next => exact .throw _ _
    next =>
      refine (Tells.bind (.ofExcept _) (.ofExcept _) fun _ _ =>
        Tells.bind (answers type) ih fun _ _ => .pure _).congr ?_
      simp [Everywhere, KeyTypesNode]
  | sum left right info ihl ihr =>
    refine (Tells.bind (answers left) ihl fun _ _ =>
      Tells.bind (answers right) ihr fun _ _ => .pure _).congr ?_
    simp [Everywhere, KeyTypesNode]
  | defaulted type value ih =>
    refine (Tells.bind (.ofExcept _) (.ofExcept _) fun _ _ =>
      Tells.bind (answers type) ih fun _ _ => .pure _).congr ?_
    simp [Everywhere, KeyTypesNode]
  | enum type values ih =>
    unfold compileWith
    split
    next => exact .throw _ _
    next =>
      refine (Tells.bind (answers type) ih fun _ _ => .pure _).congr ?_
      simp [Everywhere, KeyTypesNode]
  | array member info ih =>
    refine (Tells.bind (answers member) ih fun _ _ => .pure _).congr ?_
    simp [Everywhere, KeyTypesNode]
  | map key value info ihk ihv =>
    refine (Tells.bind (answers key) ihk fun _ _ =>
      Tells.bind (answers value) ihv fun _ _ => .pure _).congr ?_
    simp [Everywhere, KeyTypesNode]
  | schema s ih =>
    have hkeys : Answers (compileKeysWith declare table r s.keys) _ :=
      compileKeysWith_answers hd fun k _ => answers k.type
    refine (Tells.bind hkeys (compileKeysWith_tells hd ht ih) fun _ _ =>
      Tells.bind (.ofExcept _) (.ofExcept _) fun _ _ => .pure _).congr ?_
    simp only [Everywhere, KeyTypesNode, writtenEverywhere_iff, and_true, forall_and]
    exact and_comm
  | safe type ih | lax type ih | maybe type ih =>
    refine (Tells.bind (answers type) ih fun _ _ => .pure _).congr ?_
    simp [Everywhere, KeyTypesNode]

end

/-- Whatever comes to hold at each node for good comes to hold everywhere. -/
theorem Everywhere.eventually {ι : Type} {l : Filter ι} {N : Ast → Prop} {M : ι → Ast → Prop}
    (hnode : ∀ a, N a → ∀ᶠ i in l, M i a) {a : Ast} (h : a.Everywhere N) :
    ∀ᶠ i in l, a.Everywhere (M i) := by
  induction a with
  | nominal _ _ | any _ | named _ _ => exact hnode _ h
  | sum _ _ _ ihl ihr | map _ _ _ ihl ihr =>
    exact (hnode _ h.1).and ((ihl h.2.1).and (ihr h.2.2))
  | schema s ih =>
    obtain ⟨hs, hkeys⟩ := h
    have htypes : ∀ᶠ i in l, ∀ k ∈ s.keys, k.type.Everywhere (M i) :=
      (eventually_all_finite s.keys.finite_toSet).mpr fun k hk =>
        ih k hk (writtenEverywhere_iff.mp hkeys k hk)
    exact (hnode _ hs).and (htypes.mono fun i hi => writtenEverywhere_iff.mpr hi)
  | constrained _ _ ih | converted _ _ ih | defaulted _ _ ih | enum _ _ ih | array _ _ ih
  | safe _ ih | lax _ ih | maybe _ ih => exact (hnode _ h.1).and (ih h.2)

theorem KeyTypesNode.eventually {ι : Type} {l : Filter ι} {table : FuncTable} {r : Registry}
    {P : Ty → Prop} {Q : ι → Ty → Prop} (hPQ : ∀ t, P t → ∀ᶠ i in l, Q i t) (a : Ast)
    (h : KeyTypesNode P table r a) : ∀ᶠ i in l, KeyTypesNode (Q i) table r a := by
  cases a with
  | schema s =>
    refine (eventually_all_finite s.keys.finite_toSet).mpr fun k hk => ?_
    cases hcompile : k.type.compile table r with
    | error e => exact Eventually.of_forall fun i t ht => by cases ht
    | ok t =>
      refine (hPQ t (h k hk t hcompile)).mono fun i hi u hu => ?_
      cases hu
      exact hi
  | _ => exact Eventually.of_forall fun _ => trivial

/-- A name that is known leads in no cycle of bare references. -/
def SettledNode (w : World) (number : Nat) : Ast → Prop
  | named identifier _ =>
    (∃ e, (w.get number identifier).1 = .error e) ∨
      ∀ k, ReflTransGen w.scope.Bare (number, identifier) k → ¬TransGen w.scope.Bare k k
  | _ => True

/-- The references of a compiled type are the names of the written one. -/
theorem references_compile {table : FuncTable} {r : Registry} {Q : Nat × String → Prop}
    {N : Ast → Prop} (hN : ∀ identifier info, N (named identifier info) → Q (r.number, identifier))
    {a : Ast} {t : Ty} (h : a.compile table r = .ok t) (hnames : a.Everywhere N) :
    ∀ ref ∈ t.references, Q ref.entry := by
  induction a, t, h using compile_induction with
  | nominal | any => simp [Ty.references]
  | named identifier info =>
    intro ref href
    obtain rfl := List.mem_singleton.mp href
    exact hN identifier info hnames
  | constrained _ _ _ _ _ _ ih | converted _ _ _ _ _ _ _ ih | defaulted _ _ _ _ _ _ ih
  | enum _ _ _ _ _ _ ih | array _ _ _ _ _ ih | safe _ _ _ _ ih | maybe _ _ _ _ ih =>
    exact ih hnames.2
  | lax _ _ _ _ ih => exact Ty.references_strip (ih hnames.2)
  | sum _ _ _ _ _ _ _ _ ihl ihr | map _ _ _ _ _ _ _ _ ihl ihr =>
    exact List.forall_mem_append.mpr ⟨ihl hnames.2.1, ihr hnames.2.2⟩
  | schema s types transform _ htypes =>
    have hkeys := writtenEverywhere_iff.mp hnames.2
    intro ref href
    obtain ⟨l, hl, href⟩ := mem_keyReferences.mp href
    have hmem : l ∈ types := (Schema.mem_foldl_putKey hl).resolve_left List.not_mem_nil
    obtain ⟨k, hk, ⟨-, ih⟩, -⟩ := exists_mem_of_forall₂ htypes.flip hmem
    exact ih (hkeys k hk) ref href

end Ast

namespace World

variable {w : World} {table : FuncTable} {r : Registry} {a : Ast}

/-- Compiling comes to an end, with this result. -/
def Compiles (w : World) (table : FuncTable) (r : Registry) (a : Ast) (res : Result Ty) : Prop :=
  ∃ depth lookups later, w.compile table r a depth lookups = (res, later, true)

theorem Compiles.eq {res : Result Ty} (h : w.Compiles table r a res) :
    a.compile table r = res := by
  obtain ⟨depth, lookups, later, h⟩ := h
  rw [← w.compile_fst table r a depth lookups, h]

/-- So much depth and so many lookups are enough to tell the metadata of a type. -/
def Told (w : World) (depth lookups : Nat) (ty : Ty) : Prop :=
  (answer (fun scope => ty.info scope depth) lookups [] w).1.isSome = true

theorem Told.described {depth lookups : Nat} {ty : Ty} (h : w.Told depth lookups ty) :
    ty.Described w.scope := by
  obtain ⟨info, hinfo⟩ := Option.isSome_iff_exists.mp h
  have hknows : Inquiry.Knows w.scope [] := fun _ _ h => by cases h
  exact ⟨depth, info, run_of_answer (.info depth ty) hknows hinfo⟩

theorem eventually_told {ty : Ty} (h : ty.Described w.scope) :
    ∀ᶠ depth in atTop, ∀ᶠ lookups in atTop, w.Told depth lookups ty := by
  obtain ⟨fuel, info, hinfo⟩ := h
  refine eventually_atTop.mpr ⟨fuel, fun depth hdepth => eventually_atTop.mpr ?_⟩
  have hmore := Ty.info_mono hdepth hinfo
  exact (w.answers_iff (.info depth ty)).mpr ⟨info, hmore⟩

theorem declare_tells (w : World) (depth lookups : Nat) (ty : Ty) :
    Tells w.scope (compile.declare depth lookups ty) (w.Told depth lookups ty) := by
  have hrun : ∀ s : World × Bool, (compile.declare depth lookups ty).run s =
      (.ok (), (answer (fun scope => ty.info scope depth) lookups [] s.1).2,
        s.2 && (answer (fun scope => ty.info scope depth) lookups [] s.1).1.isSome) :=
    fun _ => rfl
  have htold : ∀ s : World × Bool, s.1.scope = w.scope →
      (((compile.declare depth lookups ty).run s).2.2 = true ↔
        s.2 = true ∧ w.Told depth lookups ty) := by
    intro s hs
    rw [hrun, Bool.and_eq_true, answer_congr hs]
    rfl
  constructor
  · intro s hs
    rw [hrun, scope_answer, hs]
  · exact fun s hs hcounts hP => (htold s hs).mpr ⟨hcounts, hP⟩
  · exact fun s hs hcounts => ((htold s hs).mp hcounts).1
  · exact fun s hs hcounts _ _ => ((htold s hs).mp hcounts).2

theorem compile_tells (w : World) (table : FuncTable) (r : Registry) (a : Ast)
    (depth lookups : Nat) :
    Tells w.scope (a.compileWith (compile.declare depth lookups) table r)
      (a.KeyTypes (w.Told depth lookups) table r) :=
  Ast.compileWith_tells (fun _ _ => rfl) (w.declare_tells depth lookups) a

/-- Compiling only looks entries up, and so leaves what is found under each name. -/
theorem scope_compile (w : World) (table : FuncTable) (r : Registry) (a : Ast)
    (depth lookups : Nat) : (w.compile table r a depth lookups).2.1.scope = w.scope :=
  (w.compile_tells table r a depth lookups).same (w, true) rfl

/-- The metadata of the types of keys can be told where there is a result. -/
theorem Compiles.described {t : Ty} (h : w.Compiles table r a (.ok t)) :
    a.KeyTypes (Ty.Described w.scope) table r := by
  obtain ⟨depth, lookups, later, h⟩ := h
  have hcounts := congrArg (fun out => out.2.2) h
  have hresult := congrArg Prod.fst h
  have htold := (w.compile_tells table r a depth lookups).holds (w, true) rfl hcounts t hresult
  refine htold.imp fun node hnode => ?_
  cases node with
  | schema s => exact fun k hk u hu => (hnode k hk u hu).described
  | _ => trivial

/-- If the metadata of the types of keys can be told, then compiling comes to an end. -/
theorem compiles_of_described (h : a.KeyTypes (Ty.Described w.scope) table r) :
    w.Compiles table r a (a.compile table r) := by
  have hdepth : ∀ᶠ depth in atTop,
      a.KeyTypes (fun t => ∀ᶠ lookups in atTop, w.Told depth lookups t) table r :=
    Ast.Everywhere.eventually (Ast.KeyTypesNode.eventually fun _ => eventually_told) h
  obtain ⟨depth, hdepth⟩ := hdepth.exists
  have hlookups : ∀ᶠ lookups in atTop, a.KeyTypes (w.Told depth lookups) table r :=
    Ast.Everywhere.eventually (Ast.KeyTypesNode.eventually fun _ ht => ht) hdepth
  obtain ⟨lookups, hlookups⟩ := hlookups.exists
  have hends := (w.compile_tells table r a depth lookups).ends (w, true) rfl rfl hlookups
  have hresult := w.compile_fst table r a depth lookups
  exact ⟨depth, lookups, (w.compile table r a depth lookups).2.1,
    Prod.ext hresult (Prod.ext rfl hends)⟩

/-- An entry from which no cycle of bare references is reached. -/
def Settled (w : World) (k : Nat × String) : Prop :=
  ∀ k', ReflTransGen w.scope.Bare k k' → ¬TransGen w.scope.Bare k' k'

theorem Settled.acc {k : Nat × String} (h : w.Settled k) :
    Acc (fun b a => w.scope.Bare a b) k := by
  have hclosed : ∀ k k', w.Settled k → w.scope.Bare k k' → w.Settled k' :=
    fun _ _ hsettled step last path => hsettled last (.head step path)
  exact acc_of_acyclic (fun _ _ step => w.mem_mentioned step.mentions) hclosed
    (fun _ hsettled => hsettled _ .refl) h

/-- Names that are unknown, or lead in no cycle, do not keep compiling from its end. -/
theorem described_of_settled (h : a.Everywhere (Ast.SettledNode w r.number)) :
    a.KeyTypes (Ty.Described w.scope) table r := by
  have hnode : ∀ identifier info, Ast.SettledNode w r.number (.named identifier info) →
      w.Settled (r.number, identifier) := by
    rintro identifier info (⟨e, he⟩ | hsettled)
    · intro k path cycle
      -- An unknown name leads nowhere, so it could only be on the cycle itself.
      have hnowhere : ∀ k', ¬w.scope.Bare (r.number, identifier) k' := by
        rintro k' ⟨ty, -, hty, -, -⟩
        have hget : (w.get r.number identifier).1 = .ok ty := Except.ok.inj hty
        rw [he] at hget
        cases hget
      rcases path.cases_head with rfl | ⟨k', step, -⟩
      · obtain ⟨k', step, -⟩ := TransGen.head'_iff.mp cycle
        exact hnowhere k' step
      · exact hnowhere k' step
    · exact hsettled
  induction a with
  | nominal _ _ | any _ | named _ _ => trivial
  | sum _ _ _ ihl ihr | map _ _ _ ihl ihr => exact ⟨trivial, ihl h.2.1, ihr h.2.2⟩
  | constrained _ _ ih | converted _ _ ih | defaulted _ _ ih | enum _ _ ih | array _ _ ih
  | safe _ ih | lax _ ih | maybe _ ih => exact ⟨trivial, ih h.2⟩
  | schema s ih =>
    have hkeys := writtenEverywhere_iff.mp h.2
    refine ⟨fun k hk t ht => ?_, writtenEverywhere_iff.mpr fun k hk => ih k hk (hkeys k hk)⟩
    refine Ty.described_of_acc w.total_scope fun ref href => ?_
    exact (Ast.references_compile hnode ht (hkeys k hk) ref (Ty.mem_references_of_bare href)).acc

/-- The compiler has a type for just those written types whose nodes are all acceptable, provided
that it comes to an end at all. It does so where the metadata of the types of keys can be told, thus
in particular where no known name leads in a cycle; unknown names do not matter. -/
theorem compiles_iff_acceptable (w : World) (table : FuncTable) (r : Registry) (a : Ast) :
    ((∃ t, w.Compiles table r a (.ok t)) ↔
      a.Acceptable table r.predicates ∧ a.KeyTypes (Ty.Described w.scope) table r) ∧
    (a.KeyTypes (Ty.Described w.scope) table r → ∃ res, w.Compiles table r a res) ∧
    (a.Everywhere (Ast.SettledNode w r.number) →
      ((∃ t, w.Compiles table r a (.ok t)) ↔ a.Acceptable table r.predicates)) := by
  have hexact : (∃ t, w.Compiles table r a (.ok t)) ↔
      a.Acceptable table r.predicates ∧ a.KeyTypes (Ty.Described w.scope) table r := by
    constructor
    · rintro ⟨t, h⟩
      exact ⟨Ast.acceptable_compile h.eq, h.described⟩
    · rintro ⟨hacceptable, hdescribed⟩
      obtain ⟨t, ht⟩ := Ast.exists_compile hacceptable
      have hcompiles := compiles_of_described hdescribed
      rw [ht] at hcompiles
      exact ⟨t, hcompiles⟩
  refine ⟨hexact, fun hdescribed => ⟨_, compiles_of_described hdescribed⟩, fun hsettled => ?_⟩
  rw [hexact]
  exact and_iff_left (described_of_settled hsettled)

/-- A schema with one key, whose values are what an identifier stands for or anything else. -/
def looseSchema (identifier : String) (transform : KeyTransform String) : Ast :=
  .schema { keys := [⟨.string "k", .sum (.named identifier {}) (.any {}) {}, true⟩], transform }

/-- Nothing is known under the identifier, and it does not matter. -/
theorem compiles_looseSchema :
    (looseSchema "unheard of" (.custom "same")).Everywhere (Ast.SettledNode treeWorld 0) ∧
    ∃ t, treeWorld.Compiles { functions := [⟨"same", fun v => .ok v⟩] } treeRegistry
      (looseSchema "unheard of" (.custom "same")) (.ok t) := by
  have hparams : Identifier.params? "unheard of" = none := by decide +kernel
  have hget : treeRegistry.get "unheard of" =
      (.error (Registry.unknown "unheard of"), treeRegistry) :=
    Registry.find_of_unknown rfl hparams _
  have hunknown : (treeWorld.get 0 "unheard of").1 = .error (Registry.unknown "unheard of") :=
    congrArg Prod.fst hget
  have hsettled :
      (looseSchema "unheard of" (.custom "same")).Everywhere (Ast.SettledNode treeWorld 0) :=
    ⟨trivial, ⟨trivial, Or.inl ⟨_, hunknown⟩, trivial⟩, trivial⟩
  have hacceptable : (looseSchema "unheard of" (.custom "same")).Acceptable
      { functions := [⟨"same", fun v => .ok v⟩] } treeRegistry.predicates := by
    refine ⟨fun handle hcustom => ?_, ⟨trivial, trivial, trivial⟩, trivial⟩
    obtain rfl := KeyTransform.custom.inj hcustom
    rfl
  have hiff := (treeWorld.compiles_iff_acceptable { functions := [⟨"same", fun v => .ok v⟩] }
    treeRegistry (looseSchema "unheard of" (.custom "same"))).2.2 hsettled
  exact ⟨hsettled, hiff.mpr hacceptable⟩

/-- It is never found out whether a value that may be itself, or anything else, may be left out. -/
theorem not_described_looseKey :
    ¬(Ty.sum (.reference ⟨0, "a", {}⟩) (.nominal .any {}) {}).Described maybeWorld.scope := by
  rintro ⟨fuel, info, hinfo⟩
  obtain ⟨p, hp, -⟩ := bind_eq_ok.mp hinfo
  exact primitive_maybeWorld fuel p hp

/-- All nodes are acceptable, but compiling does not end: the key asks what the entry is about. -/
theorem endless_looseSchema :
    ∃ r, maybeWorld.registry? 0 = some r ∧
      (looseSchema "a" .identity).Acceptable {} r.predicates ∧
      ¬∃ res, maybeWorld.Compiles {} r (looseSchema "a" .identity) res := by
  refine ⟨_, rfl, ?_⟩
  generalize hr : ({ number := 0, types := _ } : Registry) = r
  have hacceptable : (looseSchema "a" .identity).Acceptable {} r.predicates := by
    refine ⟨fun handle hcustom => ?_, ⟨trivial, trivial, trivial⟩, trivial⟩
    cases hcustom
  refine ⟨hacceptable, ?_⟩
  rintro ⟨res, h⟩
  obtain ⟨t, ht⟩ := Ast.exists_compile hacceptable
  rw [← h.eq, ht] at h
  obtain ⟨hkey, -⟩ := h.described
  have hnumber : r.number = 0 := by rw [← hr]
  have hdescribed := hkey _ List.mem_cons_self _ rfl
  rw [hnumber] at hdescribed
  exact not_described_looseKey hdescribed

end World

end Conform
