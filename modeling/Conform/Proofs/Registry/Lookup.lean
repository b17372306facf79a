import Conform.Proofs.Registry.Identifier
import Conform.Proofs.Run
import Conform.Registry.Basic
import Mathlib.Logic.Relation

namespace Conform.Registry

open Relation

/-- A type that is built of what is known under the parts of an identifier. -/
inductive Made (known? : String → Option Ty) (identifier : String) (ty : Ty) : Prop
  | one {base member : String} {b m : Ty}
    (parts : Identifier.params? identifier = some (base, [member])) (hb : known? base = some b)
    (hm : known? member = some m) (built : b.ofMember m = .ok ty)
  | two {base key value : String} {b k v : Ty}
    (parts : Identifier.params? identifier = some (base, [key, value])) (hb : known? base = some b)
    (hk : known? key = some k) (hv : known? value = some v) (built : b.ofMap k v = .ok ty)

theorem Made.mono {known? known?' : String → Option Ty} {identifier : String} {ty : Ty}
    (h : ∀ name t, known? name = some t → known?' name = some t)
    (made : Made known? identifier ty) : Made known?' identifier ty := by
  cases made with
  | one parts hb hm built => exact .one parts (h _ _ hb) (h _ _ hm) built
  | two parts hb hk hv built => exact .two parts (h _ _ hb) (h _ _ hk) (h _ _ hv) built

theorem lookup_cons_eq (identifier : String) (ty : Ty) (entries : List (String × Ty))
    (name : String) :
    ((identifier, ty) :: entries).lookup name =
      if name = identifier then some ty else entries.lookup name := by
  by_cases hn : name = identifier
  · subst hn
    simp
  · have hne : (name == identifier) = false := by simpa using hn
    rw [List.lookup_cons, hne, if_neg hn]

theorem known?_eq_none {r : Registry} {identifier : String} :
    r.known? identifier = none ↔
      r.types.lookup identifier = none ∧ r.parametrized.lookup identifier = none := by
  simp [known?]

@[simp]
theorem keep_types (r : Registry) (identifier : String) (ty : Ty) :
    (r.keep identifier ty).types = r.types := by
  unfold keep
  split
  · rfl
  · rfl

section

variable {r : Registry} {identifier : String}

theorem keep_parametrized (h : r.known? identifier = none) (ty : Ty) (name : String) :
    (r.keep identifier ty).parametrized.lookup name =
      if name = identifier then some ty else r.parametrized.lookup name := by
  obtain ⟨-, hkept⟩ := known?_eq_none.mp h
  simp [keep, hkept, lookup_cons_eq]

theorem keep_known? (h : r.known? identifier = none) (ty : Ty) (name : String) :
    (r.keep identifier ty).known? name = if name = identifier then some ty else r.known? name := by
  rw [known?, keep_types, keep_parametrized h]
  split
  next heq =>
    subst heq
    rw [(known?_eq_none.mp h).1, Option.none_or]
  next => rfl

end

/-- In one step of a lookup a type is kept that is made of types known already. -/
inductive Keeps (most : Nat) (r : Registry) : Registry → Prop
  | keep {identifier : String} {ty : Ty} (short : identifier.length ≤ most)
    (new : r.known? identifier = none) (made : Made r.known? identifier ty) :
    Keeps most r (r.keep identifier ty)

/-- Some steps that keep types of identifiers of a limited length. -/
abbrev Leads (most : Nat) : Registry → Registry → Prop :=
  ReflTransGen (Keeps most)

section

variable {most : Nat} {r r' : Registry}

theorem Keeps.known? (h : Keeps most r r') {name : String} {t : Ty}
    (hk : r.known? name = some t) : r'.known? name = some t := by
  obtain ⟨-, new, -⟩ := h
  rw [keep_known? new]
  split
  next heq =>
    subst heq
    cases new.symm.trans hk
  next => exact hk

theorem Leads.mono {more : Nat} (hle : most ≤ more) (h : Leads most r r') : Leads more r r' := by
  refine ReflTransGen.mono (fun r r' hkeeps => ?_) r r' h
  obtain ⟨short, new, made⟩ := hkeeps
  exact .keep (by omega) new made

/-- A lookup leaves what is registered alone. -/
theorem Leads.types (h : Leads most r r') : r'.types = r.types := by
  induction h with
  | refl => rfl
  | tail _ step ih =>
    obtain ⟨-, -, -⟩ := step
    rw [keep_types, ih]

/-- What is known stays known during a lookup. -/
theorem Leads.known? (h : Leads most r r') {name : String} {t : Ty}
    (hk : r.known? name = some t) : r'.known? name = some t := by
  induction h with
  | refl => exact hk
  | tail _ step ih => exact step.known? ih

/-- A lookup finds nothing out about identifiers longer than those it looks up. -/
theorem Leads.known?_long (h : Leads most r r') {name : String} (hlong : most < name.length) :
    r'.known? name = r.known? name := by
  induction h with
  | refl => rfl
  | tail _ step ih =>
    obtain ⟨short, new, -⟩ := step
    rw [keep_known? new, if_neg (fun heq => by rw [heq] at hlong; omega), ih]

end

/-- A lookup keeps types of identifiers of a limited length only, and where it has a result, the
result and the registry that it leaves satisfy a condition. -/
def Ensures {α : Type} (most : Nat) (x : Lookup α) (r : Registry)
    (post : α → Registry → Prop) : Prop :=
  Leads most r (x.run r).2 ∧ ∀ a, (x.run r).1 = .ok a → post a (x.run r).2

namespace Ensures

variable {α β : Type} {most : Nat} {x : Lookup α} {r : Registry} {post : α → Registry → Prop}

theorem throw (e : Error) : Ensures most (MonadExcept.throw e : Lookup α) r post :=
  ⟨.refl, fun _ h => by cases h⟩

theorem pure {a : α} (h : post a r) : Ensures most (Pure.pure a) r post :=
  ⟨.refl, fun _ ha => by cases ha; exact h⟩

theorem ofExcept (res : Result α) :
    Ensures most (MonadExcept.ofExcept res) r fun a r' => res = .ok a ∧ r' = r := by
  cases res with
  | error e => exact throw e
  | ok a => exact pure ⟨rfl, rfl⟩

theorem bind {f : α → Lookup β} {post' : β → Registry → Prop} (hx : Ensures most x r post)
    (hf : ∀ a r', Leads most r r' → post a r' → Ensures most (f a) r' post') :
    Ensures most (x >>= f) r post' := by
  obtain ⟨hleads, hpost⟩ := hx
  rcases hrun : x.run r with ⟨_ | a, r'⟩
  · rw [hrun] at hleads
    refine ⟨?_, fun b hb => ?_⟩
    · rw [run_bind_of_error hrun]
      exact hleads
    · rw [run_bind_of_error hrun] at hb
      cases hb
  · rw [hrun] at hleads hpost
    obtain ⟨hmore, hthen⟩ := hf a r' hleads (hpost a rfl)
    unfold Ensures
    rw [run_bind_of_ok hrun]
    exact ⟨hleads.trans hmore, hthen⟩

theorem congr {y : Lookup α} (hrun : x.run r = y.run r) (h : Ensures most y r post) :
    Ensures most x r post := by
  unfold Ensures
  rw [hrun]
  exact h

theorem mono {more : Nat} (hle : most ≤ more) (h : Ensures most x r post) :
    Ensures more x r post :=
  ⟨h.1.mono hle, h.2⟩

end Ensures

/-- A type that is made of known ones is kept, and is known then. -/
theorem ensures_keep {most : Nat} {r : Registry} {identifier : String} {ty : Ty}
    (short : identifier.length ≤ most) (new : r.known? identifier = none)
    (made : Made r.known? identifier ty) :
    Ensures most (do modify fun r => r.keep identifier ty; return ty) r
      fun t r' => r'.known? identifier = some t := by
  refine ⟨.single (.keep short new made), fun t ht => ?_⟩
  cases ht
  have hkept := keep_known? new ty identifier
  rw [if_pos rfl] at hkept
  exact hkept

section

variable {r : Registry} {identifier : String}

theorem find_of_known {ty : Ty} (h : r.known? identifier = some ty) (fuel : Nat) :
    (find (fuel + 1) identifier).run r = (.ok ty, r) := by
  rw [find, run_get, h]
  rfl

theorem find_of_unknown (h : r.known? identifier = none)
    (hparams : Identifier.params? identifier = none) (fuel : Nat) :
    (find (fuel + 1) identifier).run r = (.error (unknown identifier), r) := by
  rw [find, run_get, h, hparams]
  rfl

theorem find_one {base member : String} (h : r.known? identifier = none)
    (hparams : Identifier.params? identifier = some (base, [member])) (fuel : Nat) :
    (find (fuel + 1) identifier).run r =
      ExceptT.run (do
        let b ← find fuel base
        let m ← find fuel member
        let built ← MonadExcept.ofExcept (b.ofMember m)
        modify fun r => r.keep identifier built
        return built : Lookup Ty) r := by
  rw [find, run_get, h, hparams]

theorem find_two {base key value : String} (h : r.known? identifier = none)
    (hparams : Identifier.params? identifier = some (base, [key, value])) (fuel : Nat) :
    (find (fuel + 1) identifier).run r =
      ExceptT.run (do
        let b ← find fuel base
        let k ← find fuel key
        let v ← find fuel value
        let built ← MonadExcept.ofExcept (b.ofMap k v)
        modify fun r => r.keep identifier built
        return built : Lookup Ty) r := by
  rw [find, run_get, h, hparams]

theorem find_other {base : String} {params : List String} (h : r.known? identifier = none)
    (hparams : Identifier.params? identifier = some (base, params))
    (hone : ∀ member, params ≠ [member]) (htwo : ∀ key value, params ≠ [key, value]) (fuel : Nat) :
    (find (fuel + 1) identifier).run r =
      ExceptT.run (do
        let _ ← find fuel base
        throw (unknown identifier) : Lookup Ty) r := by
  rw [find, run_get, h, hparams]
  dsimp only
  split
  next member => exact absurd rfl (hone member)
  next key value => exact absurd rfl (htwo key value)
  next => rfl

end

/-- Looking up a part of an identifier leaves the identifier itself unknown. -/
theorem Ensures.part {fuel : Nat} {identifier name : String} {r : Registry}
    (h : Ensures name.length (find fuel name) r fun ty r' => r'.known? name = some ty)
    (hname : name.length < identifier.length) (hr : r.known? identifier = none) :
    Ensures identifier.length (find fuel name) r
      fun ty r' => r'.known? name = some ty ∧ r'.known? identifier = none := by
  obtain ⟨hleads, hfinds⟩ := h
  refine ⟨hleads.mono (by omega), fun ty hty => ⟨hfinds ty hty, ?_⟩⟩
  rw [hleads.known?_long hname, hr]

/-- A lookup keeps types made of known ones, of no longer identifiers; what it finds is known. -/
theorem find_ensures (fuel : Nat) (identifier : String) (r : Registry) :
    Ensures identifier.length (find fuel identifier) r
      fun ty r' => r'.known? identifier = some ty := by
  induction fuel generalizing identifier r with
  | zero => exact .throw _
  | succ fuel ih =>
    cases hknown : r.known? identifier with
    | some ty => exact .congr (find_of_known hknown fuel) (.pure hknown)
    | none =>
      cases hparams : Identifier.params? identifier with
      | none => exact .congr (find_of_unknown hknown hparams fuel) (.throw _)
      | some parts =>
        obtain ⟨base, params⟩ := parts
        obtain ⟨hbase, hshort⟩ := Identifier.params?_shorter hparams
        -- The parts are shorter, so the identifier is still new when the type is kept.
        have hfirst := (ih base r).part hbase hknown
        by_cases hone : ∃ member, params = [member]
        · obtain ⟨member, rfl⟩ := hone
          have hmember := hshort member (by simp)
          refine .congr (find_one hknown hparams fuel) (hfirst.bind fun b r₁ _ h₁ => ?_)
          obtain ⟨hb, new⟩ := h₁
          refine ((ih member r₁).part hmember new).bind fun m r₂ later h₂ => ?_
          obtain ⟨hm, new⟩ := h₂
          refine (Ensures.ofExcept _).bind fun ty r₃ _ h₃ => ?_
          obtain ⟨built, rfl⟩ := h₃
          exact ensures_keep (Nat.le_refl _) new (.one hparams (later.known? hb) hm built)
        by_cases htwo : ∃ key value, params = [key, value]
        · obtain ⟨key, value, rfl⟩ := htwo
          have hkey := hshort key (by simp)
          have hvalue := hshort value (by simp)
          refine .congr (find_two hknown hparams fuel) (hfirst.bind fun b r₁ _ h₁ => ?_)
          obtain ⟨hb, new⟩ := h₁
          refine ((ih key r₁).part hkey new).bind fun k r₂ later h₂ => ?_
          obtain ⟨hk, new⟩ := h₂
          refine ((ih value r₂).part hvalue new).bind fun v r₃ last h₃ => ?_
          obtain ⟨hv, new⟩ := h₃
          refine (Ensures.ofExcept _).bind fun ty r₄ _ h₄ => ?_
          obtain ⟨built, rfl⟩ := h₄
          exact ensures_keep (Nat.le_refl _) new
            (.two hparams (last.known? (later.known? hb)) (last.known? hk) hv built)
        refine .congr (find_other hknown hparams ?_ ?_ fuel) (hfirst.bind fun _ _ _ _ => .throw _)
        · exact fun member heq => hone ⟨member, heq⟩
        · exact fun key value heq => htwo ⟨key, value, heq⟩

theorem get_of_known {r : Registry} {identifier : String} {ty : Ty}
    (h : r.known? identifier = some ty) : r.get identifier = (.ok ty, r) :=
  find_of_known h _

theorem get_leads (r : Registry) (identifier : String) :
    Leads identifier.length r (r.get identifier).2 :=
  (find_ensures _ identifier r).1

theorem known?_of_get {r : Registry} {identifier : String} {ty : Ty}
    (h : (r.get identifier).1 = .ok ty) : (r.get identifier).2.known? identifier = some ty :=
  (find_ensures _ identifier r).2 ty h

/-- What may be asked of a registry. -/
inductive Call where
  | register (identifier : String) (ty : Ty)
  | get (identifier : String)

/-- The registry after a call; one that refuses a type is as before. -/
def after (r : Registry) : Call → Registry
  | .register identifier ty => (r.register identifier ty).toOption.getD r
  | .get identifier => (r.get identifier).2

/-- The registry after some calls. -/
def run (r : Registry) (calls : List Call) : Registry :=
  calls.foldl after r

theorem run_cons (r : Registry) (call : Call) (calls : List Call) :
    r.run (call :: calls) = (r.after call).run calls :=
  rfl

theorem after_register_taken {r : Registry} {identifier : String}
    (h : r.contains identifier = true) (ty : Ty) : r.after (.register identifier ty) = r := by
  simp [after, register, h, Except.toOption]

theorem after_register_new {r : Registry} {identifier : String}
    (h : r.contains identifier = false) (ty : Ty) :
    r.after (.register identifier ty) = { r with types := (identifier, ty) :: r.types } := by
  simp [after, register, h, Except.toOption]

/-- A new type is known under its identifier, before what may have been kept for it. -/
theorem known?_register_new {r : Registry} {identifier : String}
    (h : r.contains identifier = false) (ty : Ty) (name : String) :
    (r.after (.register identifier ty)).known? name =
      if name = identifier then some ty else r.known? name := by
  rw [after_register_new h, known?, lookup_cons_eq]
  split
  · rfl
  · rfl

section

variable {r : Registry} {identifier : String}

theorem contains_of_types {r' : Registry} (h : r'.types = r.types) :
    r'.contains identifier = r.contains identifier := by
  rw [contains, contains, h]

theorem contains_get (name : String) : (r.get name).2.contains identifier = r.contains identifier :=
  contains_of_types (get_leads r name).types

theorem contains_register_other {name : String} (hn : name ≠ identifier) (ty : Ty) :
    (r.after (.register name ty)).contains identifier = r.contains identifier := by
  cases htaken : r.contains name with
  | true => rw [after_register_taken htaken]
  | false =>
    rw [after_register_new htaken, contains, lookup_cons_eq, if_neg (Ne.symm hn)]
    rfl

theorem known?_register_other {name : String} (hn : name ≠ identifier) (ty : Ty) :
    (r.after (.register name ty)).known? identifier = r.known? identifier := by
  cases htaken : r.contains name with
  | true => rw [after_register_taken htaken]
  | false => rw [known?_register_new htaken, if_neg (Ne.symm hn)]

theorem contains_register_new (h : r.contains identifier = false) (ty : Ty) :
    (r.after (.register identifier ty)).contains identifier = true := by
  rw [after_register_new h, contains, lookup_cons_eq, if_pos rfl]
  rfl

end

/-- A registry of a class of arrays and one of numbers. -/
def arrays : Registry :=
  ({ number := 0 } : Registry).run
    [.register "array" (.nominal .array {}), .register "int" (.strict .int)]

theorem get_arrays :
    arrays.get "array<int>" =
      (.ok (.array (.strict .int) {}), arrays.keep "array<int>" (.array (.strict .int) {})) := by
  have hparams : Identifier.params? "array<int>" = some ("array", ["int"]) := by decide +kernel
  rw [get, find_one rfl hparams]
  rfl

end Conform.Registry
