import Conform.Proofs.Registry.Lookup
import Conform.Proofs.Ty.Recursion
import Conform.World
import Mathlib.Data.Set.Finite.Basic
import Mathlib.Order.WellFounded

/-!
References through registries. Types that are built of the parts of an identifier refer to nothing
but what their parts refer to, so a type leads to finitely many entries.
-/

namespace Conform

open Relation

namespace Ty

section

variable {Q : Reference → Prop}

theorem references_strip {ty : Ty} (h : ∀ r ∈ ty.references, Q r) :
    ∀ r ∈ ty.strip.references, Q r := by
  induction ty with
  | schema s ih =>
    simp only [references, strip, mem_keyReferences, stripKeys_eq_map] at h ⊢
    rintro r ⟨l, hl, hr⟩
    obtain ⟨k, hk, rfl⟩ := List.mem_map.mp hl
    exact ih k hk (fun r hr => h r ⟨k, hk, hr⟩) r hr
  | sum _ _ _ ihl ihr | map _ _ _ ihl ihr =>
    simp only [references, strip, List.forall_mem_append] at h ⊢
    exact ⟨ihl h.1, ihr h.2⟩
  | nominal _ _ | reference _ | lax _ _ => exact h
  | constrained _ _ _ ih | converted _ _ ih | defaulted _ _ ih | enum _ _ ih | array _ _ ih
  | safe _ ih | maybe _ ih => exact ih h

theorem references_atCore {expected : String} {change : Ty → Option Ty} {ty t : Ty}
    (hchange : ∀ {u v : Ty}, (∀ r ∈ u.references, Q r) → change u = some v →
      ∀ r ∈ v.references, Q r)
    (h : ∀ r ∈ ty.references, Q r) (ht : ty.atCore expected change = .ok t) :
    ∀ r ∈ t.references, Q r := by
  induction ty generalizing t with
  | constrained inner _ _ ih | converted inner _ ih | defaulted inner _ ih | enum inner _ ih
  | safe inner ih | maybe inner ih =>
    obtain ⟨u, hu, rfl⟩ := map_eq_ok.mp ht
    have hinner := ih h hu
    exact hinner
  | lax inner ih =>
    obtain ⟨u, hu, rfl⟩ := map_eq_ok.mp ht
    exact references_strip (ih h hu)
  | _ =>
    simp only [Ty.atCore] at ht
    split at ht
    next u hu => exact Except.ok.inj ht ▸ hchange h hu
    next => simp at ht

theorem references_ofMember {ty member t : Ty} (h : ∀ r ∈ ty.references, Q r)
    (hm : ∀ r ∈ member.references, Q r) (ht : ty.ofMember member = .ok t) :
    ∀ r ∈ t.references, Q r := by
  refine references_atCore (fun _ hu => ?_) h ht
  split at hu
  next => exact Option.some.inj hu ▸ hm
  next => exact Option.some.inj hu ▸ hm
  next => cases hu

theorem references_ofMap {ty key value t : Ty} (h : ∀ r ∈ ty.references, Q r)
    (hk : ∀ r ∈ key.references, Q r) (hv : ∀ r ∈ value.references, Q r)
    (ht : ty.ofMap key value = .ok t) : ∀ r ∈ t.references, Q r := by
  refine references_atCore (fun _ hu => ?_) h ht
  split at hu
  next => exact Option.some.inj hu ▸ List.forall_mem_append.mpr ⟨hk, hv⟩
  next => exact Option.some.inj hu ▸ List.forall_mem_append.mpr ⟨hk, hv⟩
  next => cases hu

end

end Ty

namespace Registry

variable {r : Registry} {Q : Reference → Prop}

/-- Whatever holds of all references in a registry holds of those in what a lookup finds. -/
theorem references_get (h : ∀ name ty, r.known? name = some ty → ∀ ref ∈ ty.references, Q ref)
    {identifier : String} {ty : Ty} (hty : (r.get identifier).1 = .ok ty) :
    ∀ ref ∈ ty.references, Q ref := by
  have hafter : ∀ name t, (r.get identifier).2.known? name = some t →
      ∀ ref ∈ t.references, Q ref := by
    have hleads := get_leads r identifier
    generalize (r.get identifier).2 = r' at hleads
    induction hleads with
    | refl => exact h
    | tail _ step ih =>
      obtain ⟨-, new, made⟩ := step
      intro name t ht
      rw [keep_known? new] at ht
      split at ht
      next =>
        cases ht
        cases made with
        | one _ hb hm built => exact Ty.references_ofMember (ih _ _ hb) (ih _ _ hm) built
        | two _ hb hk hv built =>
          exact Ty.references_ofMap (ih _ _ hb) (ih _ _ hk) (ih _ _ hv) built
      next => exact ih name t ht
  exact hafter identifier ty (known?_of_get hty)

/-- The entries that the types in a registry refer to. -/
def mentioned (r : Registry) : List (Nat × String) :=
  (r.types ++ r.parametrized).flatMap fun e => e.2.references.map Reference.entry

theorem mem_mentioned_of_known? {name : String} {ty : Ty} (h : r.known? name = some ty)
    {ref : Reference} (href : ref ∈ ty.references) : ref.entry ∈ r.mentioned := by
  have hmem : (name, ty) ∈ r.types ++ r.parametrized := by
    rw [List.mem_append]
    rcases Option.or_eq_some_iff.mp h with hlookup | ⟨-, hlookup⟩
    · exact Or.inl (mem_of_lookup hlookup)
    · exact Or.inr (mem_of_lookup hlookup)
  exact List.mem_flatMap.mpr ⟨_, hmem, List.mem_map_of_mem href⟩

end Registry

/-- The entries that the types in the registries refer to. -/
def World.mentioned (w : World) : List (Nat × String) :=
  w.registries.flatMap Registry.mentioned

theorem World.total_scope (w : World) : w.scope.Total :=
  fun _ _ => ⟨_, rfl⟩

theorem World.mem_mentioned {w : World} {k k' : Nat × String} (h : w.scope.Mentions k k') :
    k' ∈ w.mentioned := by
  obtain ⟨ty, ref, hty, href, rfl⟩ := h
  have hget : (w.get k.1 k.2).1 = .ok ty := Except.ok.inj hty
  unfold World.get at hget
  split at hget
  next => cases hget
  next r hr =>
    have hall := Registry.references_get (r := r) (Q := fun ref => ref.entry ∈ r.mentioned)
      (fun _ _ hknown _ href => Registry.mem_mentioned_of_known? hknown href) hget
    exact List.mem_flatMap.mpr ⟨r, List.mem_of_find?_eq_some hr, hall ref href⟩

/-- A relation that leads into finitely many things, and in no cycle, comes to an end. -/
theorem acc_of_acyclic {α : Type} {R : α → α → Prop} {P : α → Prop} {targets : List α}
    (hmem : ∀ a b, R a b → b ∈ targets) (hclosed : ∀ a b, P a → R a b → P b)
    (hacyclic : ∀ a, P a → ¬TransGen R a a) {a : α} (ha : P a) : Acc (fun b a => R a b) a := by
  have hfinite : Finite {b // b ∈ targets ∧ P b} :=
    (targets.finite_toSet.subset fun _ hb => hb.1).to_subtype
  let below (c b : {b // b ∈ targets ∧ P b}) : Prop := TransGen R b.1 c.1
  have htrans : IsTrans _ below := ⟨fun _ _ _ hcb hba => hba.trans hcb⟩
  have hirrefl : Std.Irrefl below := ⟨fun b => hacyclic b.1 b.2.2⟩
  have htarget : ∀ b : {b // b ∈ targets ∧ P b}, Acc (fun b a => R a b) b.1 := by
    intro b
    induction b using (Finite.wellFounded_of_trans_of_irrefl below).induction with
    | _ b ih =>
      refine Acc.intro b.1 fun c hc => ?_
      exact ih ⟨c, hmem b.1 c hc, hclosed b.1 c b.2.2 hc⟩ (.single hc)
  exact Acc.intro a fun b hb => htarget ⟨b, hmem a b hb, hclosed a b ha hb⟩

namespace Ty

/-- A type leads to the entries that it refers to, and to all that their types lead to. -/
def Reaches (scope : Scope) (ty : Ty) (k : Nat × String) : Prop :=
  ∃ r ∈ ty.references, ReflTransGen scope.Mentions r.entry k

/-- Of the types that a type leads to, as they are found in the registries or built there, no cycle
of references does without an array, a map or a schema, and none has a reference below a conversion
or an enum. What is built is to be looked at, too: the layers of its base come to be around its
parts, so a conversion to arrays with members has the references of the members below it. -/
structure Founded (scope : Scope) (ty : Ty) : Prop where
  cycles : ∀ k, ty.Reaches scope k → ¬TransGen scope.Bare k k
  steady : ∀ k t, ty.Reaches scope k → scope.Holds k t → t.Steady

end Ty

/-- Recursive types terminate: calling and trying a type end on every value if the cycles of its
references pass through items, entries or keys. -/
theorem World.recursion_ends (w : World) {ty : Ty} (h : ty.Founded w.scope) (input : Value) :
    (∃ r, ty.Coerces w.scope input r) ∧ ∃ o, ty.Attempts w.scope input o := by
  have hclosed : ∀ k k', ty.Reaches w.scope k → w.scope.Mentions k k' → ty.Reaches w.scope k' := by
    rintro k k' ⟨r, hr, path⟩ step
    exact ⟨r, hr, path.tail step⟩
  have hacc : ∀ k, ty.Reaches w.scope k → Acc (fun b a => w.scope.Bare a b) k := fun k hk =>
    acc_of_acyclic (fun _ _ step => w.mem_mentioned step.mentions)
      (fun a b ha step => hclosed a b ha step.mentions) h.cycles hk
  have hends : ty.Ends w.scope input := by
    refine Ty.ends_of_references fun r v run => ?_
    have hr : r ∈ ty.references := Ty.references_subset_of_visits run List.mem_cons_self
    exact Ty.ends_of_acc w.total_scope hclosed hacc h.steady ⟨r, hr, .refl⟩ v
  exact ⟨hends.coerces, hends⟩

/-- A tree has a list of trees, and a plant is another name for it. -/
def treeRegistry : Registry where
  number := 0
  types :=
    [("tree", .schema
        { keys := [⟨.symbol "branches", .array (.reference ⟨0, "tree", {}⟩) {}, false⟩] }),
     ("plant", .reference ⟨0, "tree", {}⟩)]

def treeWorld : World where
  registries := [treeRegistry]
  next := 1

theorem founded_plant : Ty.Founded treeWorld.scope (.maybe (.reference ⟨0, "plant", {}⟩)) := by
  have htree : treeWorld.scope.Holds (0, "tree") (.schema
      { keys := [⟨.symbol "branches", .array (.reference ⟨0, "tree", {}⟩) {}, false⟩] }) := rfl
  have hplant : treeWorld.scope.Holds (0, "plant") (.reference ⟨0, "tree", {}⟩) := rfl
  have hreaches : ∀ k, Ty.Reaches treeWorld.scope (.maybe (.reference ⟨0, "plant", {}⟩)) k →
      k = (0, "plant") ∨ k = (0, "tree") := by
    rintro k ⟨r, hr, path⟩
    obtain rfl := List.mem_singleton.mp hr
    induction path with
    | refl => exact Or.inl rfl
    | tail _ step ih =>
      obtain ⟨t, r, ht, hr, rfl⟩ := step
      rcases ih with rfl | rfl
      · obtain rfl := ht.unique hplant
        obtain rfl := List.mem_singleton.mp hr
        exact Or.inr rfl
      · obtain rfl := ht.unique htree
        obtain rfl := List.mem_singleton.mp hr
        exact Or.inr rfl
  have hbare : ∀ k, ¬treeWorld.scope.Bare (0, "tree") k := by
    rintro k ⟨t, r, ht, hr, -⟩
    obtain rfl := ht.unique htree
    cases hr
  constructor
  · intro k hk cycle
    obtain ⟨k', step, rest⟩ := TransGen.head'_iff.mp cycle
    rcases hreaches k hk with rfl | rfl
    · obtain ⟨t, r, ht, hr, rfl⟩ := step
      obtain rfl := ht.unique hplant
      obtain rfl := List.mem_singleton.mp hr
      rcases rest.cases_head with heq | ⟨k', step, -⟩
      · exact absurd heq (by decide)
      · exact hbare k' step
    · exact hbare k' step
  · intro k t hk ht
    rcases hreaches k hk with rfl | rfl
    · obtain rfl := ht.unique hplant
      exact trivial
    · obtain rfl := ht.unique htree
      simp [Ty.Everywhere, keysEverywhere, Ty.SteadyNode]

theorem recursion_ends_plant :
    Ty.Founded treeWorld.scope (.maybe (.reference ⟨0, "plant", {}⟩)) ∧
    (∃ r, (Ty.maybe (.reference ⟨0, "plant", {}⟩)).Coerces treeWorld.scope
      (.hash [(.symbol "branches", .array [.hash [], .hash [(.symbol "branches", .nil)]])]) r) ∧
    ∃ o, (Ty.maybe (.reference ⟨0, "plant", {}⟩)).Attempts treeWorld.scope
      (.hash [(.symbol "branches", .array [.hash [], .hash [(.symbol "branches", .nil)]])]) o :=
  ⟨founded_plant, treeWorld.recursion_ends founded_plant _⟩

/-- An array type that comes to an end on some items does so on the first of them. -/
theorem Ty.coerce_head {scope : Scope} {member : Ty} {info : Metadata} {fuel : Nat} {v : Value}
    {vs : List Value} {res : Result Value}
    (h : (Ty.array member info).coerce scope (fuel + 1) (.array (v :: vs)) = .ok res) :
    ∃ res', member.coerce scope fuel v = .ok res' := by
  simp only [coerce] at h
  obtain ⟨_, hitems, -⟩ := bind_eq_ok.mp h
  rw [coerceItems] at hitems
  obtain ⟨res', hv, -⟩ := bind_eq_ok.mp hitems
  exact ⟨res', hv⟩

/-- A reference that comes to an end makes the type that it stands for do so. -/
theorem Ty.coerce_held {scope : Scope} {r : Reference} {ty : Ty} (hty : scope.Holds r.entry ty)
    (hother : ∀ r, ty ≠ .reference r) {fuel : Nat} {input : Value} {res : Result Value}
    (h : (Ty.reference r).coerce scope (fuel + 1) input = .ok res) :
    ty.coerce scope fuel input = .ok res := by
  simp only [coerce] at h
  obtain ⟨found, hfound, h⟩ := bind_eq_ok.mp h
  cases fuel with
  | zero => cases hfound
  | succ fuel =>
    rw [Reference.resolve, Reference.follow_held (by simp) hty, Reference.follow_other hother]
      at hfound
    cases hfound
    exact h

/-- A function that puts its input in an array. -/
def wrap : Func where
  handle := "wrap"
  call v := .ok (.array [v])

/-- A list of trees in boxes. -/
def boxedTrees : Ty :=
  .array (.reference ⟨0, "box<tree>", {}⟩) {}

/-- A box is an array in an array, made of anything. What makes a box of a tree is built when it is
first asked for, and then it is below a conversion that it refers to trees in boxes. -/
def boxRegistry : Registry where
  number := 0
  types := [("box", .converted (.nominal .array {}) [wrap, wrap]), ("tree", boxedTrees)]

def boxWorld : World where
  registries := [boxRegistry]
  next := 1

theorem holds_box :
    boxWorld.scope.Holds (0, "box<tree>") (.converted (.array boxedTrees {}) [wrap, wrap]) := by
  have hparams : Identifier.params? "box<tree>" = some ("box", ["tree"]) := by decide +kernel
  have hget : (boxRegistry.get "box<tree>").1 =
      .ok (.converted (.array boxedTrees {}) [wrap, wrap]) := by
    rw [Registry.get, Registry.find_one rfl hparams]
    rfl
  exact congrArg Except.ok hget

/-- A tree with a branch is wrapped into a tree with the same branch. -/
theorem boxedTrees_again {fuel : Nat} {res : Result Value}
    (h : boxedTrees.coerce boxWorld.scope fuel (.array [.nil]) = .ok res) :
    ∃ less < fuel, ∃ res', boxedTrees.coerce boxWorld.scope less (.array [.nil]) = .ok res' := by
  obtain _ | _ | fuel := fuel
  · cases h
  · cases h
  obtain ⟨res, hbox⟩ := Ty.coerce_head h
  have hconverted := Ty.coerce_held holds_box (by simp) hbox
  obtain _ | _ | fuel := fuel
  · cases hconverted
  · cases hconverted
  have hwrapped : (Ty.array boxedTrees {}).coerce boxWorld.scope (fuel + 1)
      (.array [.array [.nil]]) = .ok res := hconverted
  obtain ⟨res', htree⟩ := Ty.coerce_head hwrapped
  exact ⟨fuel, by omega, res', htree⟩

/-- It does not do to look at the types that have been registered: of these, none has a reference
below a conversion or an enum, and every cycle passes through the items of an array. -/
theorem recursion_endless_box :
    (∀ e ∈ boxRegistry.types, e.2.Steady) ∧
    (∀ k, boxedTrees.Reaches boxWorld.scope k → ¬TransGen boxWorld.scope.Bare k k) ∧
    (¬∃ res, boxedTrees.Coerces boxWorld.scope (.array [.nil]) res) ∧
    ¬∃ o, boxedTrees.Attempts boxWorld.scope (.array [.nil]) o := by
  have hreaches : ∀ k, boxedTrees.Reaches boxWorld.scope k → k = (0, "box<tree>") := by
    rintro k ⟨r, hr, path⟩
    obtain rfl := List.mem_singleton.mp hr
    induction path with
    | refl => rfl
    | tail _ step ih =>
      obtain ⟨t, r, ht, hr, rfl⟩ := step
      obtain rfl := ht.unique (ih ▸ holds_box)
      obtain rfl := List.mem_singleton.mp hr
      rfl
  have hendless : ¬∃ res, boxedTrees.Coerces boxWorld.scope (.array [.nil]) res := by
    rintro ⟨res, fuel, h⟩
    induction fuel using Nat.strongRecOn generalizing res with
    | ind fuel ih =>
      obtain ⟨less, hless, res', h'⟩ := boxedTrees_again h
      exact ih less hless res' h'
  refine ⟨by simp [boxRegistry, boxedTrees, Ty.Everywhere, Ty.SteadyNode, Ty.references],
    fun k hk cycle => ?_, hendless, fun hends => hendless (Ty.Ends.coerces hends)⟩
  obtain ⟨k', ⟨t, r, ht, hr, -⟩, -⟩ := TransGen.head'_iff.mp cycle
  obtain rfl := ht.unique (hreaches k hk ▸ holds_box)
  cases hr

end Conform
