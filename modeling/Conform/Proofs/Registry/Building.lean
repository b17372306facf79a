import Conform.Proofs.Registry.Expression
import Conform.Proofs.Registry.Lookup

namespace Conform.Registry

open Identifier Expression

/-- Only plain identifiers are registered, and what is kept is what known parts are built to. Types
that are registered later change neither, so this is kept through all calls. -/
structure Coherent (r : Registry) : Prop where
  plain : ∀ name, r.contains name = true → Plain name.toList
  made : ∀ name ty, r.parametrized.lookup name = some ty → Made r.known? name ty

/-- The type that is registered under an identifier. -/
def registered (r : Registry) (identifier : String) : Result Ty :=
  match r.types.lookup identifier with
  | some ty => .ok ty
  | none => .error (unknown identifier)

theorem registered_congr {r r' : Registry} (h : r'.types = r.types) :
    r'.registered = r.registered := by
  funext identifier
  rw [registered, registered, h]

section

variable {known? : String → Option Ty} {identifier : String} {ty : Ty}

theorem Made.exists_params? (h : Made known? identifier ty) :
    ∃ parts, params? identifier = some parts := by
  cases h with
  | one parts => exact ⟨_, parts⟩
  | two parts => exact ⟨_, parts⟩

theorem Made.of_one {base member : String} (h : Made known? identifier ty)
    (hp : params? identifier = some (base, [member])) :
    ∃ b m, known? base = some b ∧ known? member = some m ∧ b.ofMember m = .ok ty := by
  cases h with
  | one parts hb hm built =>
    cases parts.symm.trans hp
    exact ⟨_, _, hb, hm, built⟩
  | two parts => cases parts.symm.trans hp

theorem Made.of_two {base key value : String} (h : Made known? identifier ty)
    (hp : params? identifier = some (base, [key, value])) :
    ∃ b k v, known? base = some b ∧ known? key = some k ∧ known? value = some v ∧
      b.ofMap k v = .ok ty := by
  cases h with
  | one parts => cases parts.symm.trans hp
  | two parts hb hk hv built =>
    cases parts.symm.trans hp
    exact ⟨_, _, _, hb, hk, hv, built⟩

end

/-- Keeping what has been built does not change the result. -/
theorem run_keep_fst (built : Result Ty) (identifier : String) (r : Registry) :
    (ExceptT.run (do
      let ty ← MonadExcept.ofExcept built
      modify fun r => r.keep identifier ty
      return ty : Lookup Ty) r).1 = built := by
  cases built with
  | error e => rfl
  | ok ty => rfl

namespace Coherent

variable {r r' : Registry}

/-- Nothing is kept under a plain identifier. -/
theorem parametrized_plain (h : Coherent r) {name : String} (hn : Plain name.toList) :
    r.parametrized.lookup name = none := by
  cases hk : r.parametrized.lookup name with
  | none => rfl
  | some ty =>
    obtain ⟨parts, hp⟩ := (h.made name ty hk).exists_params?
    cases (params?_plain hn).symm.trans hp

theorem known?_plain (h : Coherent r) {name : String} (hn : Plain name.toList) :
    r.known? name = r.types.lookup name := by
  rw [known?, h.parametrized_plain hn, Option.or_none]

theorem registered_of_known? (h : Coherent r) {name : String} (hn : Plain name.toList) {ty : Ty}
    (hk : r.known? name = some ty) : r.registered name = .ok ty := by
  rw [h.known?_plain hn] at hk
  rw [registered, hk]

/-- Nothing is registered under an identifier with parameters. -/
theorem lookup_of_params? (h : Coherent r) {name : String} {parts : String × List String}
    (hp : params? name = some parts) : r.types.lookup name = none := by
  cases hk : r.types.lookup name with
  | none => rfl
  | some ty =>
    have hplain := h.plain name (by rw [contains, hk]; rfl)
    cases (params?_plain hplain).symm.trans hp

theorem made_of_known? (h : Coherent r) {name : String} {parts : String × List String} {ty : Ty}
    (hp : params? name = some parts) (hk : r.known? name = some ty) : Made r.known? name ty := by
  rw [known?, h.lookup_of_params? hp, Option.none_or] at hk
  exact h.made name ty hk

theorem keeps {most : Nat} (h : Coherent r) (step : Keeps most r r') : Coherent r' := by
  have grows : ∀ name ty, r.known? name = some ty → r'.known? name = some ty :=
    fun _ _ hk => step.known? hk
  obtain ⟨-, new, made⟩ := step
  next identifier built =>
  constructor
  · intro name hc
    rw [contains, keep_types] at hc
    exact h.plain name hc
  · intro name ty hkept
    rw [keep_parametrized new] at hkept
    split at hkept
    next heq =>
      cases hkept
      rw [heq]
      exact made.mono grows
    next => exact (h.made name ty hkept).mono grows

theorem leads {most : Nat} (h : Coherent r) (steps : Leads most r r') : Coherent r' := by
  induction steps with
  | refl => exact h
  | tail _ step ih => exact ih.keeps step

/-- A plain identifier is looked up among the registered types. -/
theorem find_plain (h : Coherent r) {name : String} (hn : Plain name.toList) (fuel : Nat) :
    (find (fuel + 1) name).run r = (r.registered name, r) := by
  have hk := h.known?_plain hn
  cases hl : r.types.lookup name with
  | none => rw [find_of_unknown (hk.trans hl) (params?_plain hn), registered, hl]
  | some ty => rw [find_of_known (hk.trans hl), registered, hl]

theorem register (h : Coherent r) {name : String} (hn : Plain name.toList) (ty : Ty) :
    Coherent (r.after (.register name ty)) := by
  cases hc : r.contains name with
  | true =>
    rw [after_register_taken hc]
    exact h
  | false =>
    have hnew : r.known? name = none := by
      rw [h.known?_plain hn]
      simpa [contains] using hc
    have grows : ∀ other t, r.known? other = some t →
        (r.after (.register name ty)).known? other = some t := by
      intro other t hk
      rw [known?_register_new hc, if_neg, hk]
      rintro rfl
      cases hnew.symm.trans hk
    constructor
    · intro other hother
      by_cases heq : other = name
      · rw [heq]
        exact hn
      · rw [contains_register_other (Ne.symm heq)] at hother
        exact h.plain other hother
    · intro other t hkept
      rw [after_register_new hc] at hkept
      exact (h.made other t hkept).mono grows

theorem run (h : Coherent r) {calls : List Call}
    (hcalls : ∀ name ty, .register name ty ∈ calls → Plain name.toList) :
    Coherent (r.run calls) := by
  induction calls generalizing r with
  | nil => exact h
  | cons call calls ih =>
    refine ih ?_ fun name ty hmem => hcalls name ty (List.mem_cons_of_mem _ hmem)
    cases call with
    | get name => exact h.leads (get_leads r name)
    | register name ty => exact h.register (hcalls name ty List.mem_cons_self) ty

/-- What is kept of an expression is its value. -/
theorem eval_of_known? (h : Coherent r) {e : Expression} {cs : List Char} (hw : Written e cs) :
    ∀ ty, r.known? (String.ofList cs) = some ty → e.eval r.registered = .ok ty := by
  intro ty hk
  induction hw generalizing ty with
  | @name n plain =>
    rw [String.ofList_toList] at hk
    exact h.registered_of_known? plain hk
  | one plain hgap hleft hm hright ih =>
    have hp := Written.params?_one plain hgap hleft hm hright
    obtain ⟨b, m, hb, hmember, built⟩ := (h.made_of_known? hp hk).of_one hp
    rw [eval, h.registered_of_known? plain hb, ok_bind, ih m hmember, ok_bind, built]
  | two plain hgap hleft hkey hbefore hafter hvalue hright ihk ihv =>
    have hp := Written.params?_two plain hgap hleft hkey hbefore hafter hvalue hright
    obtain ⟨b, k, v, hb, hk, hv, built⟩ := (h.made_of_known? hp hk).of_two hp
    rw [eval, h.registered_of_known? plain hb, ok_bind, ihk k hk, ok_bind, ihv v hv, ok_bind, built]

/-- A lookup of a text of an expression has the value of the expression as its result. -/
theorem find_written (h : Coherent r) {e : Expression} {cs : List Char} (hw : Written e cs)
    {fuel : Nat} (hfuel : cs.length < fuel) :
    ((find fuel (String.ofList cs)).run r).1 = e.eval r.registered := by
  induction hw generalizing r fuel with
  | @name n plain =>
    obtain ⟨fuel, rfl⟩ := Nat.exists_eq_add_one_of_ne_zero (Nat.ne_zero_of_lt hfuel)
    rw [String.ofList_toList, h.find_plain plain, eval]
  | one plain hgap hleft hm hright ih =>
    have hp := Written.params?_one plain hgap hleft hm hright
    have hvalue := h.eval_of_known? (.one plain hgap hleft hm hright)
    simp only [List.length_append, List.length_cons] at hfuel
    generalize String.ofList (_ ++ _ ++ _ :: _) = text at hp hvalue ⊢
    obtain ⟨fuel, rfl⟩ : ∃ n, fuel = n + 2 := ⟨fuel - 2, by omega⟩
    cases hk : r.known? text with
    | some ty => rw [find_of_known hk, hvalue ty hk]
    | none =>
      rw [find_one hk hp, run_bind_fst, h.find_plain plain, eval]
      refine bind_congr fun b => ?_
      rw [run_bind_fst, ih h (by omega)]
      exact bind_congr fun m => run_keep_fst ..
  | @two n key value gap left ks before after vs right plain hgap hleft hkey hbefore hafter hv
      hright ihk ihv =>
    have hp := Written.params?_two plain hgap hleft hkey hbefore hafter hv hright
    have hvalue := h.eval_of_known? (.two plain hgap hleft hkey hbefore hafter hv hright)
    simp only [List.length_append, List.length_cons] at hfuel
    generalize String.ofList (_ ++ _ ++ _ :: _) = text at hp hvalue ⊢
    obtain ⟨fuel, rfl⟩ : ∃ n, fuel = n + 2 := ⟨fuel - 2, by omega⟩
    cases hk : r.known? text with
    | some ty => rw [find_of_known hk, hvalue ty hk]
    | none =>
      rw [find_two hk hp, run_bind_fst, h.find_plain plain, eval]
      refine bind_congr fun b => ?_
      rw [run_bind_fst, ihk h (by omega)]
      refine bind_congr fun k => ?_
      -- The second parameter is looked up in the registry that the first one leaves.
      have hlater := (find_ensures (fuel + 1) (String.ofList ks) r).1
      rw [run_bind_fst, ihv (h.leads hlater) (by omega), registered_congr hlater.types]
      exact bind_congr fun v => run_keep_fst ..

end Coherent

/-- Where only plain identifiers are registered, looking up a text of an expression gives what the
expression gives when its names are looked up and the types built of them anew, whatever calls there
have been before; it fails if one of the names is not registered. -/
theorem get_written {start : Registry} (hkept : start.parametrized = [])
    (hstart : ∀ n, start.contains n = true → Plain n.toList) {calls : List Call}
    (hcalls : ∀ n ty, .register n ty ∈ calls → Plain n.toList) {e : Expression} {cs : List Char}
    (hw : Written e cs) :
    ((start.run calls).get (String.ofList cs)).1 =
        e.eval (fun n => ((start.run calls).get n).1) ∧
      ∀ n ∈ e.names, (start.run calls).contains n = false →
        ∃ error, ((start.run calls).get (String.ofList cs)).1 = .error error := by
  have hfresh : Coherent start := ⟨hstart, fun name ty h => by simp [hkept] at h⟩
  have hrun := hfresh.run hcalls
  generalize start.run calls = r at hrun ⊢
  have hfind : (r.get (String.ofList cs)).1 = e.eval r.registered :=
    hrun.find_written hw (by rw [String.length_ofList]; omega)
  have hnames : e.eval r.registered = e.eval fun n => (r.get n).1 := by
    refine eval_congr fun n hn => ?_
    rw [get, hrun.find_plain (hw.plain_of_mem_names n hn)]
  refine ⟨hfind.trans hnames, fun n hn hc => ?_⟩
  cases hvalue : e.eval r.registered with
  | error error => exact ⟨error, hfind.trans hvalue⟩
  | ok ty =>
    obtain ⟨t, ht⟩ := fetched_of_eval hvalue n hn
    have hnone : r.types.lookup n = none := by simpa [contains] using hc
    rw [registered, hnone] at ht
    cases ht

theorem get_arrays_written :
    ((arrays.run [.get "array<int>"]).get "array < array<int>>").1 =
      .ok (.array (.array (.strict .int) {}) {}) := by
  have harray : Plain "array".toList := plain_of_graphic (by decide) (by decide)
  have hint : Plain "int".toList := plain_of_graphic (by decide) (by decide)
  have hblank : Blank [' '] := List.forall_mem_singleton.mpr (by decide +kernel)
  have hw := Written.one harray hblank hblank
    (.one harray blank_nil blank_nil (.name hint) blank_nil) blank_nil
  have hstart : ∀ n, ({ number := 0 } : Registry).contains n = true → Plain n.toList := by
    intro n hn
    cases hn
  have hcalls : ∀ n ty, .register n ty ∈
      [Call.register "array" (.nominal .array {}), .register "int" (.strict .int),
        .get "array<int>"] → Plain n.toList := by
    intro n ty hmem
    simp only [List.mem_cons, Call.register.injEq, List.not_mem_nil, or_false] at hmem
    rcases hmem with ⟨rfl, -⟩ | ⟨rfl, -⟩ | hmem
    · exact harray
    · exact hint
    · cases hmem
  have hget := (get_written rfl hstart hcalls hw).1
  have hrun : ({ number := 0 } : Registry).run
      [.register "array" (.nominal .array {}), .register "int" (.strict .int),
        .get "array<int>"] = arrays.keep "array<int>" (.array (.strict .int) {}) := by
    change (arrays.get "array<int>").2 = _
    rw [get_arrays]
  rw [hrun] at hget
  change ((arrays.get "array<int>").2.get "array < array<int>>").1 = _
  rw [get_arrays]
  exact hget

end Conform.Registry
