import Conform.Proofs.Registry.Building
import Conform.World

/-!
Lookups keep types, but what identifiers stand for is not changed by that: a type that is kept is
the one that would be built again.
-/

namespace Conform

namespace Registry

/-- The type that is built of the parts of an identifier, when it is given what they stand for. -/
def assemble (fetch : String → Result Ty) (identifier : String) : Result Ty :=
  match Identifier.params? identifier with
  | none => .error (unknown identifier)
  | some (base, [member]) => do
    let base ← fetch base
    let member ← fetch member
    base.ofMember member
  | some (base, [key, value]) => do
    let base ← fetch base
    let key ← fetch key
    let value ← fetch value
    base.ofMap key value
  | some (base, _) => do
    let _ ← fetch base
    .error (unknown identifier)

/-- What an identifier stands for by what is known, when nothing is kept on the way. -/
def standing (known? : String → Option Ty) : Nat → String → Result Ty
  | 0, identifier => .error (unknown identifier)
  | fuel + 1, identifier =>
    match known? identifier with
    | some ty => .ok ty
    | none => assemble (standing known? fuel) identifier

section

variable {fetch fetch' : String → Result Ty} {identifier base : String}

theorem assemble_one {member : String}
    (h : Identifier.params? identifier = some (base, [member])) :
    assemble fetch identifier = (do
      let b ← fetch base
      let m ← fetch member
      b.ofMember m) := by
  rw [assemble, h]

theorem assemble_two {key value : String}
    (h : Identifier.params? identifier = some (base, [key, value])) :
    assemble fetch identifier = (do
      let b ← fetch base
      let k ← fetch key
      let v ← fetch value
      b.ofMap k v) := by
  rw [assemble, h]

theorem assemble_other {params : List String}
    (h : Identifier.params? identifier = some (base, params))
    (hone : ∀ member, params ≠ [member]) (htwo : ∀ key value, params ≠ [key, value]) :
    assemble fetch identifier = (do
      let _ ← fetch base
      .error (unknown identifier)) := by
  rw [assemble, h]
  split
  next heq => cases heq
  next member heq => cases heq; exact absurd rfl (hone member)
  next key value heq => cases heq; exact absurd rfl (htwo key value)
  next heq => cases heq; rfl

/-- Only the parts of an identifier are asked for, which are shorter than it. -/
theorem assemble_congr
    (h : ∀ name, name.length < identifier.length → fetch name = fetch' name) :
    assemble fetch identifier = assemble fetch' identifier := by
  cases hparams : Identifier.params? identifier with
  | none => rw [assemble, assemble, hparams]
  | some parts =>
    obtain ⟨base, params⟩ := parts
    obtain ⟨hbase, hshort⟩ := Identifier.params?_shorter hparams
    have hb := h base hbase
    by_cases hone : ∃ member, params = [member]
    · obtain ⟨member, rfl⟩ := hone
      have hm := h member (hshort member (by simp))
      rw [assemble_one hparams, assemble_one hparams, hb, hm]
    by_cases htwo : ∃ key value, params = [key, value]
    · obtain ⟨key, value, rfl⟩ := htwo
      have hk := h key (hshort key (by simp))
      have hv := h value (hshort value (by simp))
      rw [assemble_two hparams, assemble_two hparams, hb, hk, hv]
    have hone' : ∀ member, params ≠ [member] := fun member heq => hone ⟨member, heq⟩
    have htwo' : ∀ key value, params ≠ [key, value] := fun key value heq => htwo ⟨key, value, heq⟩
    rw [assemble_other hparams hone' htwo', assemble_other hparams hone' htwo', hb]

end

section

variable {known? known?' : String → Option Ty} {identifier : String}

theorem standing_of_known {ty : Ty} (h : known? identifier = some ty) (fuel : Nat) :
    standing known? (fuel + 1) identifier = .ok ty := by
  rw [standing, h]

theorem standing_of_new (h : known? identifier = none) (fuel : Nat) :
    standing known? (fuel + 1) identifier = assemble (standing known? fuel) identifier := by
  rw [standing, h]

/-- A type that is made of known ones is what its identifier stands for anyway. -/
theorem standing_of_made {ty : Ty} (new : known? identifier = none)
    (made : Made known? identifier ty) {fuel : Nat} (hfuel : identifier.length < fuel) :
    standing known? fuel identifier = .ok ty := by
  obtain ⟨parts, hparts⟩ := made.exists_params?
  have hbase := (Identifier.params?_shorter hparts).1
  obtain ⟨n, rfl⟩ : ∃ n, fuel = n + 2 := ⟨fuel - 2, by omega⟩
  rw [standing_of_new new]
  cases made with
  | one parts hb hm built =>
    rw [assemble_one parts, standing_of_known hb, standing_of_known hm]
    exact built
  | two parts hb hk hv built =>
    rw [assemble_two parts, standing_of_known hb, standing_of_known hk, standing_of_known hv]
    exact built

end

section

variable {most : Nat} {r r' : Registry}

theorem Keeps.standing (step : Keeps most r r') {fuel : Nat} {identifier : String}
    (hfuel : identifier.length < fuel) :
    standing r'.known? fuel identifier = standing r.known? fuel identifier := by
  induction fuel generalizing identifier with
  | zero => omega
  | succ fuel ih =>
    cases hknown : r.known? identifier with
    | some ty => rw [standing_of_known hknown, standing_of_known (step.known? hknown)]
    | none =>
      cases hlater : r'.known? identifier with
      | none =>
        rw [standing_of_new hknown, standing_of_new hlater]
        exact assemble_congr fun name hname => ih (by omega)
      | some ty =>
        -- It became known in this step, so it is made of what was known before.
        have hmade : Made r.known? identifier ty := by
          obtain ⟨-, new, made⟩ := step
          rw [keep_known? new] at hlater
          split at hlater
          next heq =>
            cases hlater
            rw [heq]
            exact made
          next => cases hknown.symm.trans hlater
        rw [standing_of_known hlater, standing_of_made hknown hmade hfuel]

theorem Leads.standing (steps : Leads most r r') {fuel : Nat} {identifier : String}
    (hfuel : identifier.length < fuel) :
    Registry.standing r'.known? fuel identifier = Registry.standing r.known? fuel identifier := by
  induction steps with
  | refl => rfl
  | tail _ step ih => rw [step.standing hfuel, ih]

/-- A lookup finds what the identifier stands for. -/
theorem find_fst {fuel : Nat} {identifier : String} (hfuel : identifier.length < fuel)
    (r : Registry) :
    ((find fuel identifier).run r).1 = Registry.standing r.known? fuel identifier := by
  induction fuel generalizing identifier r with
  | zero => omega
  | succ fuel ih =>
    -- Each part is looked up in what the lookup of the part before it leaves.
    have hpart : ∀ {name : String} {r' : Registry}, name.length < identifier.length →
        Leads identifier.length r r' →
        ((find fuel name).run r').1 = Registry.standing r.known? fuel name := by
      intro name r' hname steps
      rw [ih (by omega) r', steps.standing (by omega)]
    cases hknown : r.known? identifier with
    | some ty => rw [find_of_known hknown, standing_of_known hknown]
    | none =>
      rw [standing_of_new hknown]
      cases hparams : Identifier.params? identifier with
      | none => rw [find_of_unknown hknown hparams, assemble, hparams]
      | some parts =>
        obtain ⟨base, params⟩ := parts
        obtain ⟨hbase, hshort⟩ := Identifier.params?_shorter hparams
        have hfirst : Leads identifier.length r ((find fuel base).run r).2 :=
          (find_ensures fuel base r).1.mono (by omega)
        by_cases hone : ∃ member, params = [member]
        · obtain ⟨member, rfl⟩ := hone
          have hmember := hshort member (by simp)
          rw [find_one hknown hparams, assemble_one hparams, run_bind_fst, hpart hbase .refl]
          refine bind_congr fun b => ?_
          rw [run_bind_fst, hpart hmember hfirst]
          exact bind_congr fun m => run_keep_fst _ _ _
        by_cases htwo : ∃ key value, params = [key, value]
        · obtain ⟨key, value, rfl⟩ := htwo
          have hkey := hshort key (by simp)
          have hvalue := hshort value (by simp)
          have hsecond := hfirst.trans ((find_ensures fuel key _).1.mono (by omega))
          rw [find_two hknown hparams, assemble_two hparams, run_bind_fst, hpart hbase .refl]
          refine bind_congr fun b => ?_
          rw [run_bind_fst, hpart hkey hfirst]
          refine bind_congr fun k => ?_
          rw [run_bind_fst, hpart hvalue hsecond]
          exact bind_congr fun v => run_keep_fst _ _ _
        have hone' : ∀ member, params ≠ [member] := fun member heq => hone ⟨member, heq⟩
        have htwo' : ∀ key value, params ≠ [key, value] :=
          fun key value heq => htwo ⟨key, value, heq⟩
        rw [find_other hknown hparams hone' htwo', assemble_other hparams hone' htwo',
          run_bind_fst, hpart hbase .refl]
        rfl

theorem get_fst (r : Registry) (identifier : String) :
    (r.get identifier).1 = Registry.standing r.known? (identifier.length + 1) identifier :=
  find_fst (Nat.lt_succ_self _) r

/-- Whatever has been looked up meanwhile, an identifier stands for the same type, or for none. -/
theorem Leads.get_fst (steps : Leads most r r') (identifier : String) :
    (r'.get identifier).1 = (r.get identifier).1 := by
  rw [Registry.get_fst, Registry.get_fst, steps.standing (Nat.lt_succ_self _)]

theorem Leads.number (steps : Leads most r r') : r'.number = r.number := by
  induction steps with
  | refl => rfl
  | tail _ step ih =>
    obtain ⟨-, -, -⟩ := step
    rw [← ih, keep]
    split
    next => rfl
    next => rfl

end

end Registry

namespace World

variable {w : World}

theorem registry?_update (r : Registry) (number : Nat) :
    World.registry? (w.update r) number =
      (w.registry? number).map fun s => if s.number = r.number then r else s := by
  have hsame : ((fun s : Registry => decide (s.number = number)) ∘
      fun s => if s.number = r.number then r else s) = fun s => decide (s.number = number) := by
    funext s
    by_cases hs : s.number = r.number
    · simp [hs]
    · simp [hs]
  rw [ registry?, update, List.find?_map, hsame]
  rfl

/-- Looking an entry up leaves all entries as they are. -/
theorem scope_get (w : World) (number : Nat) (identifier : String) :
    (w.get number identifier).2.scope = w.scope := by
  cases hr : w.registry? number with
  | none => rw [get, hr]
  | some r =>
    have hleads := Registry.get_leads r identifier
    have hnumber : r.number = number := by simpa using List.find?_some hr
    have hlater : (w.get number identifier).2 = w.update (r.get identifier).2 := by
      rw [get, hr]
    have hfind : ∀ n name, ((w.update (r.get identifier).2).get n name).1 = (w.get n name).1 := by
      intro n name
      have hupdate := registry?_update (w := w) (r.get identifier).2 n
      rw [hleads.number] at hupdate
      rw [get, get, hupdate]
      cases hs : w.registry? n with
      | none => rfl
      | some s =>
        by_cases hn : s.number = r.number
        · have hsnumber : s.number = n := by simpa using List.find?_some hs
          obtain rfl : n = number := by omega
          obtain rfl : s = r := Option.some.inj (hs.symm.trans hr)
          rw [Option.map_some, if_pos rfl]
          exact hleads.get_fst name
        · rw [Option.map_some, if_neg hn]
    have hiteration : (w.update (r.get identifier).2).iteration = w.iteration := rfl
    rw [hlater, scope, scope]
    simp only [hfind, hiteration]

end World

end Conform
