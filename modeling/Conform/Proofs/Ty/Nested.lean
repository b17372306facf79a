import Conform.Proofs.Ty.Refinement

/-!
Arrays of arrays. What is under all their layers is converted in its order, and of several values
that are refused the first one is reported, at its place in the input.
-/

namespace Conform

namespace Error

/-- The keys and indexes that lead to the value of an error. -/
def path (e : Error) : List String :=
  (e.context.getD {}).path

/-- An error inside of collections, the outermost first. -/
def inside (segments : List String) (e : Error) : Error :=
  segments.foldr within e

theorem problem_within (segment : String) (e : Error) : (e.within segment).problem = e.problem := by
  cases e
  rfl

theorem path_within (segment : String) (e : Error) :
    (e.within segment).path = segment :: e.path := by
  cases e
  rfl

theorem problem_inside (segments : List String) (e : Error) :
    (e.inside segments).problem = e.problem := by
  induction segments with
  | nil => rfl
  | cons segment segments ih => exact (problem_within _ _).trans ih

theorem path_inside (segments : List String) (e : Error) :
    (e.inside segments).path = segments ++ e.path := by
  induction segments with
  | nil => rfl
  | cons segment segments ih =>
    rw [inside, List.foldr_cons, path_within]
    exact congrArg (segment :: ·) ih

end Error

namespace Value

/-- The value at some indexes of nested arrays, the outermost first. -/
def at? : Value → List Nat → Option Value
  | v, [] => some v
  | .array items, i :: path => items[i]?.bind fun item => item.at? path
  | _, _ :: _ => none

/-- The values under some layers of arrays. -/
def IsLeaf (v : Value) (depth : Nat) (path : List Nat) (leaf : Value) : Prop :=
  path.length = depth ∧ v.at? path = some leaf

/-- Changes the values under some layers of arrays. What becomes undefined is left out, and what is
no array where one is expected stays as it is. -/
def mapLeaves (f : Value → Value) : Nat → Value → Value
  | 0, v => f v
  | depth + 1, .array items => .array ((items.map (mapLeaves f depth)).filter (!·.isUndefined))
  | _ + 1, v => v

section

variable {v leaf : Value} {items : List Value} {depth : Nat} {path : List Nat}

theorem isArray_or (v : Value) : (∃ items, v = array items) ∨ ∀ items, v ≠ array items := by
  by_cases h : ∃ items, v = array items
  · exact Or.inl h
  · exact Or.inr (not_exists.mp h)

theorem isLeaf_zero : v.IsLeaf 0 path leaf ↔ path = [] ∧ leaf = v := by
  unfold IsLeaf
  rw [List.length_eq_zero_iff]
  constructor
  · rintro ⟨rfl, h⟩
    exact ⟨rfl, (Option.some.inj h).symm⟩
  · rintro ⟨rfl, rfl⟩
    exact ⟨rfl, rfl⟩

theorem isLeaf_array : (array items).IsLeaf (depth + 1) path leaf ↔
    ∃ i rest item, path = i :: rest ∧ items[i]? = some item ∧ item.IsLeaf depth rest leaf := by
  unfold IsLeaf
  constructor
  · rintro ⟨hlength, h⟩
    cases path with
    | nil => cases hlength
    | cons i rest =>
      obtain ⟨item, hitem, hleaf⟩ := Option.bind_eq_some_iff.mp h
      exact ⟨i, rest, item, rfl, hitem, Nat.succ.inj hlength, hleaf⟩
  · rintro ⟨i, rest, item, rfl, hitem, hlength, hleaf⟩
    exact ⟨congrArg Nat.succ hlength, Option.bind_eq_some_iff.mpr ⟨item, hitem, hleaf⟩⟩

/-- The leaves of an array are those of its items. -/
theorem forall_isLeaf_array {P : Value → Prop} :
    (∀ path leaf, (array items).IsLeaf (depth + 1) path leaf → P leaf) ↔
      ∀ item ∈ items, ∀ path leaf, item.IsLeaf depth path leaf → P leaf := by
  constructor
  · intro h item hitem path leaf hleaf
    obtain ⟨i, hi⟩ := List.mem_iff_getElem?.mp hitem
    exact h (i :: path) leaf (isLeaf_array.mpr ⟨i, path, item, rfl, hi, hleaf⟩)
  · intro h path leaf hleaf
    obtain ⟨i, rest, item, -, hi, hleaf⟩ := isLeaf_array.mp hleaf
    exact h item (List.mem_of_getElem? hi) rest leaf hleaf

theorem not_isLeaf (h : ∀ items, v ≠ array items) : ¬v.IsLeaf (depth + 1) path leaf := by
  rintro ⟨hlength, hleaf⟩
  cases path with
  | nil => cases hlength
  | cons i rest =>
    cases v with
    | array items => exact h items rfl
    | _ => cases hleaf

theorem mapLeaves_of_not_array (h : ∀ items, v ≠ array items) (f : Value → Value) (depth : Nat) :
    mapLeaves f (depth + 1) v = v := by
  cases v with
  | array items => exact absurd rfl (h items)
  | _ => rfl

theorem mapLeaves_congr {f g : Value → Value}
    (h : ∀ path leaf, v.IsLeaf depth path leaf → f leaf = g leaf) :
    v.mapLeaves f depth = v.mapLeaves g depth := by
  induction depth generalizing v with
  | zero => exact h [] v (isLeaf_zero.mpr ⟨rfl, rfl⟩)
  | succ depth ih =>
    rcases isArray_or v with ⟨items, rfl⟩ | hother
    · have hitems : items.map (mapLeaves f depth) = items.map (mapLeaves g depth) :=
        List.map_congr_left fun item hitem => ih (forall_isLeaf_array.mp h item hitem)
      rw [mapLeaves, mapLeaves, hitems]
    · rw [mapLeaves_of_not_array hother, mapLeaves_of_not_array hother]

end

end Value

namespace Ty

section

variable {call : Value → Run (Result Value)} {items vs : List Value} {index : Nat}

/-- The items are all converted, and what is undefined is left out. -/
theorem coerceItems_eq_ok {g : Value → Value}
    (hg : ∀ item w, call item = .ok (.ok w) → g item = w) :
    coerceItems call index items = .ok (.ok vs) ↔
      (∀ item ∈ items, call item = .ok (.ok (g item))) ∧
        vs = (items.map g).filter (!·.isUndefined) := by
  induction items generalizing index vs with
  | nil => simp [coerceItems, eq_comm]
  | cons item items ih =>
    rw [coerceItems, bind_eq_ok, List.forall_mem_cons, List.map_cons, List.filter_cons]
    constructor
    · rintro ⟨r, hr, h⟩
      cases r with
      | error e => cases h
      | ok w =>
        obtain rfl := hg item w hr
        obtain ⟨rest, hrest, h⟩ := bind_eq_ok.mp h
        cases rest with
        | error e => cases h
        | ok ws =>
          obtain ⟨hall, rfl⟩ := ih.mp hrest
          refine ⟨⟨hr, hall⟩, ?_⟩
          rw [← Except.ok.inj (pure_eq_ok.mp h)]
          cases (g item).isUndefined <;> rfl
    · rintro ⟨⟨hr, hall⟩, rfl⟩
      refine ⟨_, hr, ?_⟩
      rw [bind_eq_ok]
      refine ⟨_, ih.mpr ⟨hall, rfl⟩, ?_⟩
      cases (g item).isUndefined <;> rfl

/-- The first item that is refused is reported with its index. -/
theorem coerceItems_eq_error {e : Error} :
    coerceItems call index items = .ok (.error e) ↔
      ∃ i item cause, items[i]? = some item ∧
        (∀ j < i, ∀ before, items[j]? = some before → ∃ w, call before = .ok (.ok w)) ∧
        call item = .ok (.error cause) ∧ e = cause.within (toString (index + i)) := by
  induction items generalizing index with
  | nil => simp [coerceItems]
  | cons item items ih =>
    rw [coerceItems, bind_eq_ok]
    constructor
    · rintro ⟨r, hr, h⟩
      cases r with
      | error cause =>
        obtain rfl := Except.error.inj (pure_eq_ok.mp h)
        exact ⟨0, item, cause, rfl, by simp, hr, rfl⟩
      | ok w =>
        obtain ⟨rest, hrest, h⟩ := bind_eq_ok.mp h
        cases rest with
        | ok ws => cases h
        | error f =>
          obtain rfl := Except.error.inj (pure_eq_ok.mp h)
          obtain ⟨i, next, cause, hi, hbefore, hcause, rfl⟩ := ih.mp hrest
          refine ⟨i + 1, next, cause, hi, fun j hj before hbj => ?_, hcause, ?_⟩
          · cases j with
            | zero =>
              obtain rfl := Option.some.inj hbj
              exact ⟨w, hr⟩
            | succ j => exact hbefore j (Nat.lt_of_succ_lt_succ hj) before hbj
          · rw [Nat.add_right_comm, Nat.add_assoc]
    · rintro ⟨i, next, cause, hi, hbefore, hcause, rfl⟩
      cases i with
      | zero =>
        obtain rfl := Option.some.inj hi
        exact ⟨_, hcause, rfl⟩
      | succ i =>
        obtain ⟨w, hw⟩ := hbefore 0 (Nat.succ_pos i) item rfl
        have hrest : coerceItems call (index + 1) items =
            .ok (.error (cause.within (toString (index + (i + 1))))) := by
          refine ih.mpr ⟨i, next, cause, hi, fun j hj => ?_, hcause, ?_⟩
          · exact hbefore (j + 1) (Nat.succ_lt_succ hj)
          · rw [Nat.add_right_comm, Nat.add_assoc]
        refine ⟨_, hw, ?_⟩
        rw [bind_eq_ok]
        exact ⟨_, hrest, rfl⟩

theorem coerceItems_total (h : ∀ item ∈ items, ∃ r, call item = .ok r) (index : Nat) :
    ∃ r, coerceItems call index items = .ok r := by
  induction items generalizing index with
  | nil => exact ⟨.ok [], rfl⟩
  | cons item items ih =>
    obtain ⟨⟨r, hr⟩, hrest⟩ := List.forall_mem_cons.mp h
    obtain ⟨rest, hrest⟩ := ih hrest (index + 1)
    unfold coerceItems
    cases r with
    | error e => exact ⟨_, bind_eq_ok.mpr ⟨_, hr, rfl⟩⟩
    | ok w =>
      simp only [hr, hrest, ok_bind]
      cases rest with
      | error e => exact ⟨_, rfl⟩
      | ok ws => exact ⟨_, rfl⟩

end

section

variable {scope : Scope} {member : Ty} {info : Metadata} {items : List Value} {input : Value}

theorem coerces_array_iff {r : Result Value} :
    (array member info).Coerces scope (.array items) r ↔
      ∃ fuel result, coerceItems (coerce scope fuel member) 0 items = .ok result ∧
        result.map .array = r := by
  constructor
  · rintro ⟨fuel, h⟩
    cases fuel with
    | zero => cases h
    | succ fuel =>
      obtain ⟨result, hresult, h⟩ := bind_eq_ok.mp h
      exact ⟨fuel, result, hresult, pure_eq_ok.mp h⟩
  · rintro ⟨fuel, result, hresult, rfl⟩
    exact ⟨fuel + 1, bind_eq_ok.mpr ⟨result, hresult, rfl⟩⟩

/-- What is no array passes. -/
theorem coerces_array_other (h : ∀ items, input ≠ .array items) {r : Result Value} :
    (array member info).Coerces scope input r ↔ r = .ok input := by
  have hpasses : (array member info).Coerces scope input (.ok input) := by
    refine ⟨1, ?_⟩
    cases input with
    | array items => exact absurd rfl (h items)
    | _ => rfl
  exact hpasses.iff

theorem coerces_array_ok_iff {g : Value → Value} {out : Value}
    (hg : ∀ item w, member.Coerces scope item (.ok w) → g item = w) :
    (array member info).Coerces scope (.array items) (.ok out) ↔
      (∀ item ∈ items, member.Coerces scope item (.ok (g item))) ∧
        out = .array ((items.map g).filter (!·.isUndefined)) := by
  rw [coerces_array_iff]
  constructor
  · rintro ⟨fuel, result, hresult, h⟩
    obtain ⟨vs, rfl, rfl⟩ := map_eq_ok.mp h
    obtain ⟨hall, rfl⟩ := (coerceItems_eq_ok fun item w hw => hg item w ⟨fuel, hw⟩).mp hresult
    exact ⟨fun item hitem => ⟨fuel, hall item hitem⟩, rfl⟩
  · rintro ⟨hall, rfl⟩
    obtain ⟨fuel, hfuel⟩ := exists_depth
      (P := fun fuel item => coerce scope fuel member item = .ok (.ok (g item)))
      (fun _ _ hle _ hr => coerce_mono hle hr) hall
    exact ⟨fuel, _, (coerceItems_eq_ok fun item w hw => hg item w ⟨fuel, hw⟩).mpr ⟨hfuel, rfl⟩, rfl⟩

theorem coerces_array_error_iff {e : Error} :
    (array member info).Coerces scope (.array items) (.error e) ↔
      ∃ (i : Nat) (item : Value) (cause : Error), items[i]? = some item ∧
        (∀ j < i, ∀ before, items[j]? = some before → ∃ w, member.Coerces scope before (.ok w)) ∧
        member.Coerces scope item (.error cause) ∧ e = cause.within (toString i) := by
  rw [coerces_array_iff]
  constructor
  · rintro ⟨fuel, result, hresult, h⟩
    cases result with
    | ok vs => cases h
    | error f =>
      obtain rfl := Except.error.inj h
      obtain ⟨i, item, cause, hi, hbefore, hcause, rfl⟩ := coerceItems_eq_error.mp hresult
      rw [Nat.zero_add]
      refine ⟨i, item, cause, hi, fun j hj before hbj => ?_, ⟨fuel, hcause⟩, rfl⟩
      obtain ⟨w, hw⟩ := hbefore j hj before hbj
      exact ⟨w, fuel, hw⟩
  · rintro ⟨i, item, cause, hi, hbefore, ⟨fuel, hcause⟩, rfl⟩
    let Passes (fuel j : Nat) : Prop :=
      ∀ before, items[j]? = some before → ∃ w, coerce scope fuel member before = .ok (.ok w)
    have hmono : ∀ fuel more, fuel ≤ more → ∀ j, Passes fuel j → Passes more j := by
      intro fuel more hle j h before hbj
      obtain ⟨w, hw⟩ := h before hbj
      exact ⟨w, coerce_mono hle hw⟩
    have hpasses : ∀ j ∈ List.range i, ∃ fuel, Passes fuel j := by
      intro j hj
      cases hbj : items[j]? with
      | none => exact ⟨0, fun before h => by cases hbj.symm.trans h⟩
      | some before =>
        obtain ⟨w, fuel, hw⟩ := hbefore j (List.mem_range.mp hj) before hbj
        exact ⟨fuel, fun b h => Option.some.inj (hbj.symm.trans h) ▸ ⟨w, hw⟩⟩
    obtain ⟨more, hmore⟩ := exists_depth hmono hpasses
    refine ⟨max fuel more, _, coerceItems_eq_error.mpr ⟨i, item, cause, hi, ?_, ?_, rfl⟩, ?_⟩
    · intro j hj before hbj
      exact hmono _ _ (Nat.le_max_right fuel more) j (hmore j (List.mem_range.mpr hj)) before hbj
    · exact coerce_mono (Nat.le_max_left fuel more) hcause
    · rw [Nat.zero_add]
      rfl

theorem coerces_array_ends (h : ∀ item ∈ items, ∃ r, member.Coerces scope item r) :
    ∃ r, (array member info).Coerces scope (.array items) r := by
  have hdepth : ∀ item ∈ items, ∃ fuel r, coerce scope fuel member item = .ok r := by
    intro item hitem
    obtain ⟨r, fuel, hr⟩ := h item hitem
    exact ⟨fuel, r, hr⟩
  have hmono : ∀ fuel more, fuel ≤ more → ∀ item,
      (∃ r, coerce scope fuel member item = .ok r) →
        ∃ r, coerce scope more member item = .ok r := by
    rintro fuel more hle item ⟨r, hr⟩
    exact ⟨r, coerce_mono hle hr⟩
  obtain ⟨fuel, hfuel⟩ := exists_depth hmono hdepth
  obtain ⟨result, hresult⟩ := coerceItems_total hfuel 0
  exact ⟨_, coerces_array_iff.mpr ⟨fuel, result, hresult, rfl⟩⟩

end

/-- Layers of arrays around a type, the outermost first. -/
def arrays (layers : List Metadata) (member : Ty) : Ty :=
  layers.foldr (fun info ty => array ty info) member

/-- A value under some layers of arrays is the first that a type refuses. -/
structure FirstRefused (scope : Scope) (member : Ty) (depth : Nat) (input : Value)
    (path : List Nat) (leaf : Value) (cause : Error) : Prop where
  isLeaf : input.IsLeaf depth path leaf
  refused : member.Coerces scope leaf (.error cause)
  first : ∀ path' leaf', input.IsLeaf depth path' leaf' → path' < path →
    ∃ w, member.Coerces scope leaf' (.ok w)

section

variable {scope : Scope} {member : Ty} {layers : List Metadata} {input : Value}

theorem arrays_ends (h : ∀ path leaf, input.IsLeaf layers.length path leaf →
    ∃ r, member.Coerces scope leaf r) : ∃ r, (arrays layers member).Coerces scope input r := by
  induction layers generalizing input with
  | nil => exact h [] input (Value.isLeaf_zero.mpr ⟨rfl, rfl⟩)
  | cons info layers ih =>
    rcases input.isArray_or with ⟨items, rfl⟩ | hother
    · have hitems := Value.forall_isLeaf_array.mp h
      exact coerces_array_ends fun item hitem => ih (hitems item hitem)
    · exact ⟨_, (coerces_array_other hother).mpr rfl⟩

/-- Where every value under the layers is converted, they all are, each for itself. -/
theorem coerces_arrays_ok_iff {f : Value → Value} {out : Value}
    (hf : ∀ u w, member.Coerces scope u (.ok w) → f u = w) :
    (arrays layers member).Coerces scope input (.ok out) ↔
      (∀ path leaf, input.IsLeaf layers.length path leaf →
        member.Coerces scope leaf (.ok (f leaf))) ∧
      out = input.mapLeaves f layers.length := by
  induction layers generalizing input out with
  | nil =>
    constructor
    · intro h
      obtain rfl := hf input out h
      refine ⟨fun path leaf hleaf => ?_, rfl⟩
      obtain ⟨-, rfl⟩ := Value.isLeaf_zero.mp hleaf
      exact h
    · rintro ⟨h, rfl⟩
      exact h [] input (Value.isLeaf_zero.mpr ⟨rfl, rfl⟩)
  | cons info layers ih =>
    rcases input.isArray_or with ⟨items, rfl⟩ | hother
    · have hinner : ∀ item w, (arrays layers member).Coerces scope item (.ok w) →
          item.mapLeaves f layers.length = w := fun item w hw => (ih.mp hw).2.symm
      have hitem : ∀ item, (arrays layers member).Coerces scope item
          (.ok (item.mapLeaves f layers.length)) ↔ ∀ path leaf,
            item.IsLeaf layers.length path leaf → member.Coerces scope leaf (.ok (f leaf)) :=
        fun item => ih.trans (and_iff_left rfl)
      rw [arrays, List.foldr_cons, ← arrays, coerces_array_ok_iff hinner, List.length_cons,
        Value.forall_isLeaf_array]
      simp only [hitem, Value.mapLeaves]
    · rw [List.length_cons, Value.mapLeaves_of_not_array hother]
      refine (coerces_array_other hother).trans ?_
      rw [Except.ok.injEq, and_iff_right]
      exact fun path leaf hleaf => absurd hleaf (Value.not_isLeaf hother)

/-- What a type converts values to is a function of them. -/
theorem exists_conversion (scope : Scope) (member : Ty) :
    ∃ f : Value → Value, ∀ u w, member.Coerces scope u (.ok w) → f u = w := by
  have hvalue : ∀ u, ∃ v, ∀ w, member.Coerces scope u (.ok w) → v = w := by
    intro u
    by_cases h : ∃ v, member.Coerces scope u (.ok v)
    · obtain ⟨v, hv⟩ := h
      exact ⟨v, fun w hw => Except.ok.inj (hv.unique hw)⟩
    · exact ⟨u, fun w hw => absurd ⟨w, hw⟩ h⟩
  choose f hf using hvalue
  exact ⟨f, hf⟩

theorem exists_coerces_arrays_iff :
    (∃ out, (arrays layers member).Coerces scope input (.ok out)) ↔
      ∀ path leaf, input.IsLeaf layers.length path leaf →
        ∃ w, member.Coerces scope leaf (.ok w) := by
  obtain ⟨f, hf⟩ := exists_conversion scope member
  constructor
  · rintro ⟨out, h⟩ path leaf hleaf
    exact ⟨_, ((coerces_arrays_ok_iff hf).mp h).1 path leaf hleaf⟩
  · intro h
    refine ⟨_, (coerces_arrays_ok_iff hf).mpr ⟨fun path leaf hleaf => ?_, rfl⟩⟩
    obtain ⟨w, hw⟩ := h path leaf hleaf
    rwa [hf leaf w hw]

/-- In an array, the first leaf that is refused is the first of the first item that is refused. -/
theorem firstRefused_array {depth : Nat} {items : List Value} {path : List Nat} {leaf : Value}
    {cause : Error} : FirstRefused scope member (depth + 1) (.array items) path leaf cause ↔
      ∃ i rest item, path = i :: rest ∧ items[i]? = some item ∧
        FirstRefused scope member depth item rest leaf cause ∧
        ∀ j < i, ∀ before, items[j]? = some before → ∀ path' leaf',
          before.IsLeaf depth path' leaf' → ∃ w, member.Coerces scope leaf' (.ok w) := by
  constructor
  · intro h
    obtain ⟨i, rest, item, rfl, hi, hleaf⟩ := Value.isLeaf_array.mp h.isLeaf
    refine ⟨i, rest, item, rfl, hi, ⟨hleaf, h.refused, fun path' leaf' hleaf' hlt => ?_⟩, ?_⟩
    · exact h.first (i :: path') leaf' (Value.isLeaf_array.mpr ⟨i, path', item, rfl, hi, hleaf'⟩)
        (List.cons_lt_cons_iff.mpr (Or.inr ⟨rfl, hlt⟩))
    · intro j hj before hbj path' leaf' hleaf'
      exact h.first (j :: path') leaf'
        (Value.isLeaf_array.mpr ⟨j, path', before, rfl, hbj, hleaf'⟩)
        (List.cons_lt_cons_iff.mpr (Or.inl hj))
  · rintro ⟨i, rest, item, rfl, hi, h, hbefore⟩
    refine ⟨Value.isLeaf_array.mpr ⟨i, rest, item, rfl, hi, h.isLeaf⟩, h.refused, ?_⟩
    intro path' leaf' hleaf' hlt
    obtain ⟨j, rest', before, rfl, hbj, hleaf'⟩ := Value.isLeaf_array.mp hleaf'
    rcases List.cons_lt_cons_iff.mp hlt with hj | ⟨rfl, hrest⟩
    · exact hbefore j hj before hbj rest' leaf' hleaf'
    · obtain rfl := Option.some.inj (hi.symm.trans hbj)
      exact h.first rest' leaf' hleaf' hrest

/-- The error is that of the first value that is refused, at the indexes that lead to it. -/
theorem coerces_arrays_error_iff {e : Error} :
    (arrays layers member).Coerces scope input (.error e) ↔
      ∃ path leaf cause, FirstRefused scope member layers.length input path leaf cause ∧
        e = cause.inside (path.map toString) := by
  induction layers generalizing input e with
  | nil =>
    constructor
    · intro h
      refine ⟨[], input, e, ⟨Value.isLeaf_zero.mpr ⟨rfl, rfl⟩, h, ?_⟩, rfl⟩
      intro path' leaf' _ hlt
      exact absurd hlt (List.not_lt_nil path')
    · rintro ⟨path, leaf, cause, h, rfl⟩
      obtain ⟨rfl, rfl⟩ := Value.isLeaf_zero.mp h.isLeaf
      exact h.refused
  | cons info layers ih =>
    rcases input.isArray_or with ⟨items, rfl⟩ | hother
    · simp only [List.length_cons, firstRefused_array]
      rw [arrays, List.foldr_cons, ← arrays, coerces_array_error_iff]
      constructor
      · rintro ⟨i, item, f, hi, hbefore, hf, rfl⟩
        obtain ⟨path, leaf, cause, h, rfl⟩ := ih.mp hf
        refine ⟨i :: path, leaf, cause, ⟨i, path, item, rfl, hi, h, fun j hj before hbj => ?_⟩, rfl⟩
        exact exists_coerces_arrays_iff.mp (hbefore j hj before hbj)
      · rintro ⟨path, leaf, cause, ⟨i, rest, item, rfl, hi, h, hbefore⟩, rfl⟩
        refine ⟨i, item, _, hi, fun j hj before hbj => ?_, ih.mpr ⟨rest, leaf, cause, h, rfl⟩, rfl⟩
        exact exists_coerces_arrays_iff.mpr (hbefore j hj before hbj)
    · constructor
      · intro h
        cases (coerces_array_other hother).mp h
      · rintro ⟨path, leaf, cause, h, -⟩
        exact absurd h.isLeaf (Value.not_isLeaf hother)

end

section

variable {outcomes : List Outcome}

theorem firstFailure?_spec {i : Nat} {e : Explanation} (h : firstFailure? outcomes = some (i, e)) :
    (∃ w, outcomes[i]? = some (.failure w e)) ∧
      ∀ j < i, ∀ o, outcomes[j]? = some o → o.isSuccess = true := by
  unfold firstFailure? at h
  obtain ⟨before, ⟨o, index⟩, after, hsplit, hfound, hbefore⟩ := List.findSome?_eq_some_iff.mp h
  have hat : ∀ (j : Nat) (p : Outcome × Nat),
      outcomes.zipIdx[j]? = some p ↔ outcomes[j]? = some p.1 ∧ p.2 = j := by
    rintro j ⟨p, k⟩
    rw [List.getElem?_zipIdx, Nat.zero_add]
    cases outcomes[j]? with
    | none => simp
    | some q => simp [eq_comm]
  have hhere : outcomes.zipIdx[before.length]? = some (o, index) := by
    rw [hsplit, List.getElem?_append_right (Nat.le_refl _), Nat.sub_self]
    rfl
  obtain ⟨ho, hindex⟩ := (hat _ _).mp hhere
  obtain ⟨f, hf, hpair⟩ := Option.map_eq_some_iff.mp hfound
  obtain ⟨rfl, rfl⟩ := Prod.mk.inj hpair
  obtain rfl : index = before.length := hindex
  cases o with
  | success w => cases hf
  | failure w g =>
    obtain rfl := Option.some.inj hf
    refine ⟨⟨w, ho⟩, fun j hj o hoj => ?_⟩
    have hmem : (o, j) ∈ before := by
      have hzip := (hat j (o, j)).mpr ⟨hoj, rfl⟩
      rw [hsplit, List.getElem?_append_left hj] at hzip
      exact List.mem_of_getElem? hzip
    have hnone := hbefore _ hmem
    cases o with
    | success v => rfl
    | failure v x => cases hnone

/-- The items of a trial that are kept: what came of them, unless it is undefined. -/
def keptItems (outcomes : List Outcome) : List Value :=
  (outcomes.map Outcome.input).filter (!·.isUndefined)

/-- An array is accepted with its items, or refused for the first that is, with what came of all. -/
theorem ofItems_eq_iff {o : Outcome} : ofItems outcomes = o ↔
    ((∀ p ∈ outcomes, p.isSuccess = true) ∧ o = .success (.array (keptItems outcomes))) ∨
    ∃ (i : Nat) (w : Value) (e : Explanation), outcomes[i]? = some (.failure w e) ∧
      (∀ j < i, ∀ p, outcomes[j]? = some p → p.isSuccess = true) ∧
      o = .failure (.array (keptItems outcomes)) (.element i e) := by
  unfold ofItems
  cases hfirst : firstFailure? outcomes with
  | none =>
    have hall := firstFailure?_eq_none.mp hfirst
    constructor
    · rintro rfl
      exact Or.inl ⟨hall, rfl⟩
    · rintro (⟨-, rfl⟩ | ⟨i, w, e, hi, -⟩)
      · rfl
      · cases hall _ (List.mem_of_getElem? hi)
  | some failure =>
    obtain ⟨i, e⟩ := failure
    obtain ⟨⟨w, hi⟩, hbefore⟩ := firstFailure?_spec hfirst
    constructor
    · rintro rfl
      exact Or.inr ⟨i, w, e, hi, hbefore, rfl⟩
    · rintro (⟨hall, -⟩ | ⟨j, v, f, hj, hbefore', rfl⟩)
      · cases hall _ (List.mem_of_getElem? hi)
      · -- Neither of two first failures comes before the other.
        rcases Nat.lt_trichotomy i j with hlt | rfl | hlt
        · cases hbefore' i hlt _ hi
        · obtain ⟨-, rfl⟩ := Outcome.failure.inj (Option.some.inj (hi.symm.trans hj))
          rfl
        · cases hbefore j hlt _ hj

end

theorem attempts_array_iff {scope : Scope} {member : Ty} {info : Metadata} {items : List Value}
    {o : Outcome} : (array member info).Attempts scope (.array items) o ↔
      ∃ outcomes, List.Forall₂ (member.Attempts scope) items outcomes ∧ ofItems outcomes = o := by
  constructor
  · rintro ⟨fuel, h⟩
    cases fuel with
    | zero => cases h
    | succ fuel =>
      obtain ⟨outcomes, houtcomes, h⟩ := bind_eq_ok.mp h
      exact ⟨outcomes, (mapM_eq_ok.mp houtcomes).imp fun _ _ ho => ⟨fuel, ho⟩, pure_eq_ok.mp h⟩
  · rintro ⟨outcomes, houtcomes, rfl⟩
    have hdepth : ∃ fuel, items.mapM (attempt scope fuel member) = .ok outcomes := by
      simp only [mapM_eq_ok]
      induction houtcomes with
      | nil => exact ⟨0, .nil⟩
      | cons ho _ ih =>
        obtain ⟨fuel, ho⟩ := ho
        obtain ⟨more, hrest⟩ := ih
        refine ⟨max fuel more, .cons (attempt_mono (Nat.le_max_left fuel more) ho) ?_⟩
        exact hrest.imp fun _ _ h => attempt_mono (Nat.le_max_right fuel more) h
    obtain ⟨fuel, hfuel⟩ := hdepth
    exact ⟨fuel + 1, bind_eq_ok.mpr ⟨outcomes, hfuel, rfl⟩⟩

/-- What layers of arrays make of a value: they end where their member does, convert each leaf, and
fail with the first that is refused, whose error they leave as it is but for its place. -/
structure ConvertsLeaves (scope : Scope) (member : Ty) (layers : List Metadata) (input : Value) :
    Prop where
  ends : (∀ path leaf, input.IsLeaf layers.length path leaf → ∃ r, member.Coerces scope leaf r) →
    ∃ r, (arrays layers member).Coerces scope input r
  ok_iff : ∀ out, (arrays layers member).Coerces scope input (.ok out) ↔ ∃ f : Value → Value,
    (∀ path leaf, input.IsLeaf layers.length path leaf →
      member.Coerces scope leaf (.ok (f leaf))) ∧
    out = input.mapLeaves f layers.length
  error_iff : ∀ e, (arrays layers member).Coerces scope input (.error e) ↔
    ∃ path leaf cause, FirstRefused scope member layers.length input path leaf cause ∧
      e = cause.inside (path.map toString)
  located : ∀ e, (arrays layers member).Coerces scope input (.error e) →
    ∃ path leaf cause, FirstRefused scope member layers.length input path leaf cause ∧
      e.problem = cause.problem ∧ e.path = path.map toString ++ cause.path

/-- Layers of arrays convert what is under them. A trial of one layer goes on after a refused item,
and reports the first. -/
theorem arrays_convertsLeaves (scope : Scope) (member : Ty) :
    (∀ layers input, ConvertsLeaves scope member layers input) ∧
    ∀ info items o, (array member info).Attempts scope (.array items) o ↔
      ∃ outcomes, List.Forall₂ (member.Attempts scope) items outcomes ∧
        (((∀ p ∈ outcomes, p.isSuccess = true) ∧ o = .success (.array (keptItems outcomes))) ∨
        ∃ (i : Nat) (w : Value) (e : Explanation), outcomes[i]? = some (.failure w e) ∧
          (∀ j < i, ∀ p, outcomes[j]? = some p → p.isSuccess = true) ∧
          o = .failure (.array (keptItems outcomes)) (.element i e)) := by
  obtain ⟨f, hf⟩ := exists_conversion scope member
  constructor
  · intro layers input
    constructor
    case ends => exact arrays_ends
    case ok_iff =>
      intro out
      constructor
      · intro h
        exact ⟨f, (coerces_arrays_ok_iff hf).mp h⟩
      · rintro ⟨g, hg, rfl⟩
        have hsame : ∀ path leaf, input.IsLeaf layers.length path leaf → f leaf = g leaf :=
          fun path leaf hleaf => hf leaf _ (hg path leaf hleaf)
        refine (coerces_arrays_ok_iff hf).mpr ⟨fun path leaf hleaf => ?_, ?_⟩
        · rw [hsame path leaf hleaf]
          exact hg path leaf hleaf
        · exact (Value.mapLeaves_congr hsame).symm
    case error_iff => exact fun e => coerces_arrays_error_iff
    case located =>
      intro e h
      obtain ⟨path, leaf, cause, hfirst, rfl⟩ := coerces_arrays_error_iff.mp h
      exact ⟨path, leaf, cause, hfirst, Error.problem_inside _ _, Error.path_inside _ _⟩
  · intro info items o
    simp only [attempts_array_iff, ofItems_eq_iff]

end Ty

end Conform
